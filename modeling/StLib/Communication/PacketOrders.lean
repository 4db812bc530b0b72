import StLib.Base.FramedStreams
import StLib.Communication.ChunkInvariance
import StLib.Communication.Datagrams

/-! # Orders made of packets

`StackOrder` and `HeapOrder`: the variables of an order are those of its packet, and `process`
calls its callback. With variables of fixed sizes the orders of a board are a table, and the
stream of built orders is decoded to them. -/
namespace StLib.Communication.PacketOrders

open StLib.Base.Bytes StLib.Base.FixedLayout StLib.Base.Chunks StLib.Base.FramedStreams
open StLib.Communication.Packets StLib.Communication.PacketRoundTrip StLib.Communication.Datagrams
open StLib.Communication.OrderStream StLib.Communication.OrderTable
open StLib.Communication.ChunkInvariance

/-! ## The orders of a board -/

/-- An order and what its variables hold. -/
structure Found where
  order : Nat
  values : List (List Byte)
deriving DecidableEq

/-- The packets of the orders and the rest of the program; `found` is what each call of
`process` found. -/
structure Board (α : Type) where
  packet : Nat → Packet
  program : α
  found : List Found := []

/-- What a callback may change: the variables of all orders, and the program. -/
abbrev Callback (α : Type) := (Nat → Packet) × α → (Nat → Packet) × α

variable {α : Type}

/-- What the variables of a packet hold. -/
def values (p : Packet) : List (List Byte) := p.fields.map (view p.objects)

def Board.parse (order : Nat) (data : Memory) (b : Board α) : Board α :=
  { b with packet := Function.update b.packet order ((b.packet order).parse data) }

def Board.process (callback : Nat → Option (Callback α)) (order : Nat) (b : Board α) : Board α :=
  let found := b.found ++ [{ order, values := values (b.packet order) }]
  match callback order with
  | some f => { packet := (f (b.packet, b.program)).1, program := (f (b.packet, b.program)).2, found }
  | none => { b with found }

/-- How far from its pointer on `parse` reads. -/
def span (p : Packet) (data : Memory) : Nat :=
  ((Registered.plain p).reads data).foldr (fun i n => max (i + 1) n) 0

/-- `StackOrder` and `HeapOrder`; neither reads the address that `store_ip_order` keeps. -/
def packetOrders (ids : BitVec 16 → Option Nat) (callback : Nat → Option (Callback α)) :
    Orders (Board α) where
  find _ := ids
  getSize order b := (b.packet order).getSize
  storeIpOrder _ b := b
  parse order data b := b.parse order data
  reads order data b := span (b.packet order) data
  process order b := b.process callback order
  resetForReceive _ b := b

/-! ## Variables of fixed sizes -/

/-- Parsing never changes how long such a variable is, nor which variables it points to. -/
def Fixed (kind : PacketKind) : Field → Prop
  | .pointers .. => kind = .heap
  | .text _ => False
  | _ => True

def length (p : Packet) : Nat := (p.fields.map (valueSize p.kind)).sum + 2

/-- The packet `q` is `p` with other values. -/
structure Kept (p q : Packet) : Prop where
  kind : q.kind = p.kind
  sound : Sound q
  fields : List.Forall₂ (Alike id) p.fields q.fields

/-- No callback changes the types of the variables. -/
def Tame (packet : Nat → Packet) (callback : Nat → Option (Callback α)) : Prop :=
  ∀ order f, callback order = some f → ∀ s : (Nat → Packet) × α,
    (∀ o, Kept (packet o) (s.1 o)) → ∀ o, Kept (packet o) ((f s).1 o)

/-- The table of the orders. -/
def table (ids : BitVec 16 → Option Nat) (packet : Nat → Packet) : Table where
  find := ids
  kind order := .fixed (length (packet order)) (Nat.succ_pos _)

variable {address : Pointer → Pointer} {kind : PacketKind} {f f' f'' : Field} {p q : Packet}

theorem alike_size (h : Alike address f f') : valueSize kind f' = valueSize kind f := by
  cases h with
  | value => rfl
  | pointers size targets => cases kind <;> simp [valueSize]
  | container hlen => rw [valueSize, valueSize, hlen]
  | text hlen hstrlen => rw [valueSize, valueSize, hstrlen]

theorem alike_sameType (h : Alike id f f') : SameType f f' := by
  cases h with
  | value bytes bytes' => exact .value bytes bytes'
  | pointers size targets => exact .pointers (by rw [List.map_id])
  | container => exact .container _ _
  | text => exact .text _ _

theorem alike_trans (h : Alike address f f') (h' : Alike id f' f'') : Alike address f f'' := by
  cases h with
  | value bytes bytes' =>
    cases h' with
    | value _ bytes'' => exact .value bytes bytes''
  | pointers size targets =>
    generalize hf : Field.pointers size targets = g at h'
    cases h' with
    | pointers size' targets' =>
      rw [List.map_id] at hf
      cases hf
      exact .pointers size targets
    | value => cases hf
    | container => cases hf
    | text => cases hf
  | container hlen =>
    cases h' with
    | container hlen' => exact .container (hlen'.trans hlen)
  | text hlen hstrlen =>
    cases h' with
    | text hlen' hstrlen' => exact .text (hlen'.trans hlen) (hstrlen'.trans hstrlen)

theorem alikes_trans {fs fs' fs'' : List Field} (h : List.Forall₂ (Alike address) fs fs')
    (h' : List.Forall₂ (Alike id) fs' fs'') : List.Forall₂ (Alike address) fs fs'' := by
  induction h generalizing fs'' with
  | nil => cases h'; exact .nil
  | cons hf _ ih =>
    cases h' with
    | cons hf' h' => exact .cons (alike_trans hf hf') (ih h')

theorem alike_fixed (h : Alike id f f') (hf : Fixed kind f) : Fixed kind f' := by
  cases h with
  | pointers => exact hf
  | value => trivial
  | container => trivial
  | text => exact hf

theorem alikes_sizes {fs fs' : List Field} (h : List.Forall₂ (Alike address) fs fs') :
    fs'.map (valueSize kind) = fs.map (valueSize kind) := by
  induction h with
  | nil => rfl
  | cons hf _ ih => rw [List.map_cons, List.map_cons, alike_size hf, ih]

theorem alikes_fixed {fs fs' : List Field} (h : List.Forall₂ (Alike id) fs fs')
    (hfixed : ∀ f ∈ fs, Fixed kind f) : ∀ f ∈ fs', Fixed kind f := by
  induction h with
  | nil => exact fun f hf => absurd hf List.not_mem_nil
  | cons hf _ ih =>
    obtain ⟨hhead, htail⟩ := List.forall_mem_cons.mp hfixed
    exact List.forall_mem_cons.mpr ⟨alike_fixed hf hhead, ih htail⟩

namespace Kept

theorem length_eq (h : Kept p q) : length q = length p := by
  rw [length, length, h.kind, alikes_sizes h.fields]

theorem getSize (h : Kept p q) : q.getSize = length p := by
  rw [getSize_eq h.sound]
  exact h.length_eq

theorem fixed (h : Kept p q) (hp : ∀ f ∈ p.fields, Fixed p.kind f) :
    ∀ f ∈ q.fields, Fixed q.kind f := by
  rw [h.kind]
  exact alikes_fixed h.fields hp

end Kept

/-! ## Parsing -/

theorem parseValue_alike (data : Memory) (objects : Objects) (hf : Fixed kind f) :
    Alike id f (parseValue kind data objects f).1 := by
  cases f with
  | value size bytes => exact .value bytes _
  | pointers size targets =>
    have hheap : kind = .heap := hf
    subst hheap
    have halike := (Alike.pointers size targets : Alike id _ _)
    rwa [List.map_id] at halike
  | container size elements => exact .container ((blockLayout size).length_readAll _ _)
  | text chars => exact absurd hf id

theorem parseFields_alike (fields : List Field) (data : Memory) (objects : Objects)
    (hf : ∀ f ∈ fields, Fixed kind f) :
    List.Forall₂ (Alike id) fields (Packet.parseFields kind data objects fields).1 := by
  induction fields generalizing data objects with
  | nil => exact .nil
  | cons f fields ih =>
    obtain ⟨hhead, htail⟩ := List.forall_mem_cons.mp hf
    exact .cons (parseValue_alike data objects hhead) (ih _ _ htail)

/-- What is parsed is kept. -/
theorem Kept.parse (h : Kept p q) (hp : ∀ f ∈ p.fields, Fixed p.kind f) (data : Memory) :
    Kept p (q.parse data) := by
  have halike := parseFields_alike q.fields (data.advance 2) q.objects (h.fixed hp)
  refine ⟨h.kind, ?_, alikes_trans h.fields halike⟩
  exact sound_step h.sound (.assign (halike.imp fun _ _ => alike_sameType))

/-- The values of a packet of fixed sizes are read one after the other. -/
theorem readFields_lt (fields : List Field) (place : Nat) (data : Memory) (objects : Objects)
    (hf : ∀ f ∈ fields, Fixed kind f) :
    ∀ i ∈ readFields kind place data objects fields, i < place + (fields.map (valueSize kind)).sum := by
  induction fields generalizing place data objects with
  | nil => exact fun i hi => absurd hi List.not_mem_nil
  | cons f fields ih =>
    obtain ⟨hhead, htail⟩ := List.forall_mem_cons.mp hf
    intro i hi
    rw [List.map_cons, List.sum_cons]
    simp only [readFields, alike_size (parseValue_alike data objects hhead), List.mem_append,
      List.mem_map, List.mem_range] at hi
    rcases hi with ⟨j, hj, rfl⟩ | hi
    · omega
    · have hrest := ih _ _ _ htail i hi
      omega

theorem Kept.reads_lt (h : Kept p q) (hp : ∀ f ∈ p.fields, Fixed p.kind f) (data : Memory) :
    ∀ i ∈ (Registered.plain q).reads data, i < length p := by
  intro i hi
  have hlt := readFields_lt q.fields 2 (data.advance 2) q.objects (h.fixed hp) i hi
  rw [← h.length_eq, length]
  omega

theorem foldr_max_le {l : List Nat} {n : Nat} (h : ∀ i ∈ l, i < n) :
    l.foldr (fun i n => max (i + 1) n) 0 ≤ n := by
  induction l with
  | nil => exact Nat.zero_le n
  | cons i l ih =>
    obtain ⟨hi, hl⟩ := List.forall_mem_cons.mp h
    exact Nat.max_le.mpr ⟨hi, ih hl⟩

/-! ## The table -/

@[simp] theorem Board.parse_self (order : Nat) (data : Memory) (b : Board α) :
    (b.parse order data).packet order = (b.packet order).parse data :=
  Function.update_self ..

@[simp] theorem Board.parse_other {order o : Nat} (h : o ≠ order) (data : Memory) (b : Board α) :
    (b.parse order data).packet o = b.packet o :=
  Function.update_of_ne h ..

section Table

variable {ids : BitVec 16 → Option Nat} {callback : Nat → Option (Callback α)}
variable {packet : Nat → Packet} {b : Board α}

/-- Every order has still the variables it was made of. -/
def Intact (packet : Nat → Packet) (b : Board α) : Prop := ∀ order, Kept (packet order) (b.packet order)

theorem Intact.parse (hb : Intact packet b) (hfixed : ∀ o, ∀ f ∈ (packet o).fields, Fixed (packet o).kind f)
    (order : Nat) (data : Memory) : Intact packet (b.parse order data) := by
  intro o
  by_cases ho : o = order
  · subst ho
    rw [Board.parse_self]
    exact (hb o).parse (hfixed o) data
  · rw [Board.parse_other ho]
    exact hb o

theorem Intact.process (hb : Intact packet b) (htame : Tame packet callback) (order : Nat) :
    Intact packet (b.process callback order) := by
  rw [Board.process]
  cases hc : callback order with
  | none => exact hb
  | some f => exact htame order f hc (b.packet, b.program) hb

variable (ids) in
/-- **The orders of packets** are lawful as long as no callback changes their types. -/
theorem packetOrders_lawful (hfixed : ∀ o, ∀ f ∈ (packet o).fields, Fixed (packet o).kind f)
    (htame : Tame packet callback) :
    Lawful (packetOrders ids callback) (table ids packet) (Intact packet) where
  find _ := rfl
  findStored _ _ := rfl
  announced hb order := (hb order).getSize
  consumed hb order data := by
    have hafter := ((hb.parse hfixed order data).process htame order) order
    have hsize : ((packetOrders ids callback).getSize order
        ((packetOrders ids callback).process order ((packetOrders ids callback).parse order data _))) = _ :=
      hafter.getSize
    rw [taken]
    exact (if_pos (hsize ▸ Nat.succ_pos _)).trans hsize
  reads hb order data := foldr_max_le ((hb order).reads_lt (hfixed order) data)
  ofPrefix {b} hb order {d d'} h := by
    have hsame : (Registered.plain (b.packet order)).parse d =
        (Registered.plain (b.packet order)).parse d' :=
      parse_congr _ fun i hi => h i ((hb order).reads_lt (hfixed order) d i hi)
    simp only [Registered.parse, Registered.plain.injEq] at hsame
    change Board.parse order d' b = Board.parse order d b
    rw [Board.parse, Board.parse, hsame]
  keeps hb order data := (hb.parse hfixed order data).process htame order

end Table

/-! ## Messages -/

/-- A packet that was built, and the order it is for. -/
structure Message where
  order : Nat
  packet : Packet

/-- What the callback of the receiver has to find. -/
def Message.found (m : Message) : Found := { order := m.order, values := values m.packet }

/-- The receiver has an order of the same types for the message, and the message carries
the values of its variables. -/
structure Addressed (ids : BitVec 16 → Option Nat) (packet : Nat → Packet) (m : Message) : Prop where
  id : ids m.packet.id = some m.order
  sound : Sound m.packet
  kind : (packet m.order).kind = m.packet.kind
  fields : ∃ address, List.Forall₂ (Alike address) m.packet.fields (packet m.order).fields
  restorable : ∀ f ∈ m.packet.fields, Restorable m.packet.kind f

theorem written_take {p : Packet} (h : Sound p) (garbage : Memory) :
    (p.written garbage).1.take p.getSize = frame p := by
  have hf := fits h garbage
  rw [hf.bytes, ← hf.count, List.take_left]

/-- A packet that is built starts with its id. -/
theorem getId_frame (p : Packet) (more : List Byte) (beyond : Memory) :
    OrderStream.getId (memory (frame p ++ more) beyond) = p.id :=
  wordOfBytes_bytes p.id

theorem frame_length_ge (p : Packet) : 2 ≤ (frame p).length := by
  rw [frame, List.length_append]
  exact Nat.le_add_right 2 _

section Delivery

variable {ids : BitVec 16 → Option Nat} {callback : Nat → Option (Callback α)}
variable {packet : Nat → Packet} {b : Board α} {m : Message}

/-- The frame of a message has the size that the table says. -/
theorem Addressed.length_frame (h : Addressed ids packet m) :
    (frame m.packet).length = length (packet m.order) := by
  obtain ⟨address, halike⟩ := h.fields
  rw [frame, List.length_append, length_encodeFields, length, h.kind, alikes_sizes halike,
    Nat.add_comm]
  rfl

/-- Parsing the frame of a message gives the variables the values that were sent. -/
theorem Addressed.values_parse (h : Addressed ids packet m) (hb : Intact packet b) :
    values ((b.packet m.order).parse (image (frame m.packet))) = values m.packet := by
  obtain ⟨im, halike⟩ := h.fields
  have hkept := hb m.order
  have htrip := roundTrips_of_restorable h.sound h.restorable (fun _ => 0) (fun _ => 0) im
    (b.packet m.order) (hkept.kind.trans h.kind) (alikes_trans halike hkept.fields)
  rw [written_take h.sound] at htrip
  exact htrip

/-- The callback of a message finds what was sent. -/
theorem Addressed.found_handle (h : Addressed ids packet m) (hb : Intact packet b) :
    (handle (packetOrders ids callback) m.order (image (frame m.packet)) b).found =
      b.found ++ [m.found] := by
  have hvalues : values ((b.parse m.order (image (frame m.packet))).packet m.order) = values m.packet := by
    rw [Board.parse_self]
    exact h.values_parse hb
  change ((b.parse m.order (image (frame m.packet))).process callback m.order).found = _
  rw [Board.process, hvalues]
  cases callback m.order <;> rfl

/-- A frame of an order in the table is taken once it has come. -/
theorem referenceStep_found {O : Orders (Board α)} {rest : List Byte} {order : Nat}
    (hfound : ids (OrderStream.getId (image rest)) = some order) (hrest : 2 ≤ rest.length)
    (hsize : 2 ≤ length (packet order)) :
    referenceStep O (table ids packet) b rest =
      if rest.length < length (packet order) then none
      else some ([{ order, bytes := rest.take (length (packet order)) }], handle O order (image rest) b,
        rest.drop (length (packet order))) := by
  have hfind : (table ids packet).find (OrderStream.getId (image rest)) = some order := hfound
  have hannounced : ¬(0 < ((table ids packet).kind order).announced ∧
      ((table ids packet).kind order).announced < 2) := fun h => absurd hsize (Nat.not_le.mpr h.2)
  rw [referenceStep, if_neg (Nat.not_lt.mpr hrest)]
  simp only [hfind, if_neg hannounced]
  rfl

/-- A message that has come is taken. -/
theorem Addressed.takes (h : Addressed ids packet m) (hb : Intact packet b)
    (hlawful : Lawful (packetOrders ids callback) (table ids packet) (Intact packet)) (more : List Byte) :
    (reference (packetOrders ids callback) (table ids packet)).step b (frame m.packet ++ more) =
      some ([{ order := m.order, bytes := frame m.packet }],
        handle (packetOrders ids callback) m.order (image (frame m.packet)) b, more) := by
  have hlong := frame_length_ge m.packet
  have hlength := h.length_frame
  have hsame : handle (packetOrders ids callback) m.order (image (frame m.packet ++ more)) b =
      handle (packetOrders ids callback) m.order (image (frame m.packet)) b :=
    handle_ofPrefix hlawful hb m.order fun i hi => memory_append more _ _ (hlength ▸ hi)
  have hfound : ids (OrderStream.getId (image (frame m.packet ++ more))) = some m.order := by
    rw [image, getId_frame]
    exact h.id
  have hall : (frame m.packet).length ≤ (frame m.packet ++ more).length := by
    rw [List.length_append]
    exact Nat.le_add_right _ _
  change referenceStep _ _ b (frame m.packet ++ more) = _
  rw [referenceStep_found hfound (Nat.le_trans hlong hall) (hlength ▸ hlong), ← hlength,
    if_neg (Nat.not_lt.mpr hall)]
  rw [hsame, List.take_left, List.drop_left]

/-- A message of which something is missing waits. -/
theorem Addressed.waits {part more : List Byte} (h : Addressed ids packet m)
    (hpart : part ++ more = frame m.packet) (hmore : more ≠ []) :
    (reference (packetOrders ids callback) (table ids packet)).step b part = none := by
  have hlength := h.length_frame
  have hmore' : 0 < more.length := List.length_pos_iff.mpr hmore
  have hsum : part.length + more.length = (frame m.packet).length := by
    rw [← hpart, List.length_append]
  change referenceStep _ _ b part = _
  by_cases hshort : part.length < 2
  · rw [referenceStep, if_pos hshort]
  · have hid : OrderStream.getId (image part) = m.packet.id := by
      have happend := getId_append more (fun _ => 0#8) (fun _ => 0#8) (Nat.not_lt.mp hshort)
      have hframe := getId_frame m.packet [] (fun _ => 0#8)
      rw [List.append_nil, ← hpart] at hframe
      exact happend.symm.trans hframe
    have hpartial : part.length < length (packet m.order) := by omega
    rw [referenceStep_found (hid ▸ h.id) (Nat.not_lt.mp hshort) (hlength ▸ frame_length_ge m.packet),
      if_pos hpartial]

variable (ids callback) in
/-- **Messages are frames** to the parser. -/
def messages (hfixed : ∀ o, ∀ f ∈ (packet o).fields, Fixed (packet o).kind f)
    (htame : Tame packet callback) :
    Framing (reference (packetOrders ids callback) (table ids packet)) (Intact packet) Message where
  frame m := frame m.packet
  emits m := [{ order := m.order, bytes := frame m.packet }]
  next b m := handle (packetOrders ids callback) m.order (image (frame m.packet)) b
  known := Addressed ids packet
  takes hb hm more := hm.takes hb (packetOrders_lawful ids hfixed htame) more
  waits _ hm hpart hmore := hm.waits hpart hmore
  keeps hb hm := (packetOrders_lawful ids hfixed htame).keeps hb _ _

variable {hfixed : ∀ o, ∀ f ∈ (packet o).fields, Fixed (packet o).kind f}
  {htame : Tame packet callback}

theorem found_messages (hb : Intact packet b) {ms : List Message}
    (hms : ∀ m ∈ ms, Addressed ids packet m) :
    (ms.foldl (messages ids callback hfixed htame).next b).found =
      b.found ++ ms.map Message.found := by
  induction ms generalizing b with
  | nil => exact (List.append_nil _).symm
  | cons m ms ih =>
    obtain ⟨hm, hrest⟩ := List.forall_mem_cons.mp hms
    have hnext := (packetOrders_lawful ids hfixed htame).keeps hb m.order
      (image (frame m.packet))
    calc (List.foldl (messages ids callback hfixed htame).next _ ms).found
        = (handle (packetOrders ids callback) m.order (image (frame m.packet)) b).found ++
            ms.map Message.found := ih hnext hrest
      _ = b.found ++ (m :: ms).map Message.found := by
        rw [hm.found_handle hb, List.append_assoc]
        rfl

end Delivery

end StLib.Communication.PacketOrders
