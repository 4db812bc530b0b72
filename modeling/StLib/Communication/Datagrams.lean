import StLib.Communication.PacketRoundTrip

/-! # Datagrams

`DatagramSocket::receive_callback` hands the bytes of a datagram to the packet registered
for its id. The pointer goes without a length: how far the packet reads is decided by its
fields alone, and a string moves what follows it by the length it is given. -/
namespace StLib.Communication.Datagrams

open StLib.Base.Bytes StLib.Base.FixedLayout StLib.Communication.Packets

/-- A packet of the map `packets`. The fields of an `MdmaPacket` are copied by the MDMA,
from the list of nodes that is `linked` until a parse without an address unlinks it. -/
inductive Registered
  | plain (p : Packet)
  | mdma (fields : List (Σ size, Block size)) (linked : Bool)

abbrev Registry := BitVec 16 → Option Registered

/-- `get_size`. -/
def Registered.size : Registered → Nat
  | .plain p => (p.fields.map (valueSize p.kind)).sum + 2
  | .mdma fields _ => (fields.map Sigma.fst).sum + 2

def copyBlocks : Memory → List (Σ size, Block size) → List (Σ size, Block size)
  | _, [] => []
  | data, ⟨size, _⟩ :: fields => ⟨size, blockAt data size⟩ :: copyBlocks (data.advance size) fields

/-- `parse`. -/
def Registered.parse (data : Memory) : Registered → Registered
  | .plain p => .plain (p.parse data)
  | .mdma fields linked => .mdma (if linked then copyBlocks (data.advance 2) fields else fields) linked

/-! ## What is read -/

/-- Where the values of fields are read from `place` on: `parse` reads `get_size` bytes and
goes on by the `get_size` of what it has read. -/
def readFields (kind : PacketKind) : Nat → Memory → Objects → List Field → List Nat
  | _, _, _, [] => []
  | place, data, objects, f :: fields =>
    let (f', objects) := parseValue kind data objects f
    (List.range (valueSize kind f)).map (place + ·) ++
      readFields kind (place + valueSize kind f') (data.advance (valueSize kind f')) objects fields

/-- The offsets that `parse` reads. The MDMA fetches the packet as a whole. -/
def Registered.reads (data : Memory) : Registered → List Nat
  | .plain p => readFields p.kind 2 (data.advance 2) p.objects p.fields
  | .mdma fields linked => List.range (Registered.mdma fields linked).size

/-! ## Reception -/

/-- A `pbuf` as lwIP hands it over: the payloads of its chain, and whether the first one is
there. -/
structure Pbuf where
  chain : List (List Byte)
  payload : Bool

/-- The bytes of the datagram. -/
def Pbuf.bytes (p : Pbuf) : List Byte := p.chain.flatten

def Pbuf.totLen (p : Pbuf) : Nat := p.bytes.length

def Pbuf.len (p : Pbuf) : Nat := (p.chain.headD []).length

/-- The offsets read from the receive buffer and the packets afterwards. -/
structure Received where
  reads : List Nat
  packets : Registry

def getId (data : Memory) : BitVec 16 := wordOfBytes (data 0) (data 1)

/-- `Packet::parse_data`. -/
def parseData (packets : Registry) (data : Memory) : Received :=
  match packets (getId data) with
  | none => { reads := [0, 1], packets }
  | some p =>
    { reads := [0, 1] ++ p.reads data
      packets := Function.update packets (getId data) (some (p.parse data)) }

/-- `receive_callback`. `copied` is what `pbuf_copy_partial` answers: where it is the whole
datagram, the vector holds its bytes. Behind the payload, or the vector, is `beyond`. -/
def receiveCallback (packets : Registry) (packetBuffer : Option Pbuf) (copied : Nat)
    (beyond : Memory) : Received :=
  match packetBuffer with
  | none => { reads := [], packets }
  | some p =>
    if p.totLen ≥ 2 then
      if p.len = p.totLen ∧ p.payload then parseData packets (memory p.bytes beyond)
      else if copied = p.totLen then parseData packets (memory p.bytes beyond)
      else { reads := [], packets }
    else { reads := [], packets }

/-- What is read lies in the datagram, and one that is shorter than the packet registered
for its id changes no packet. -/
structure Contained (packets : Registry) (p : Pbuf) (r : Received) : Prop where
  inside : ∀ i ∈ r.reads, i < p.totLen
  short : ∀ q, 2 ≤ p.totLen → packets (getId (memory p.bytes fun _ => 0)) = some q →
    p.totLen < q.size → r.packets = packets

/-! ## When a datagram holds a packet -/

/-- The `get_size` of a field that is given these bytes. -/
def sizeAfter (kind : PacketKind) (bytes : List Byte) : Field → Nat
  | .text chars =>
    strlen ((bytes.take (strlen chars + 1) ++ chars.drop (strlen chars + 1)).take chars.length) + 1
  | f => valueSize kind f

/-- The bytes hold a value for each field, the strings taken at their new lengths. -/
def Covers (kind : PacketKind) : List Byte → List Field → Prop
  | _, [] => True
  | bytes, f :: fields =>
    valueSize kind f ≤ bytes.length ∧ Covers kind (bytes.drop (sizeAfter kind bytes f)) fields

def Registered.Covered (bytes : List Byte) : Registered → Prop
  | .plain p => Covers p.kind (bytes.drop 2) p.fields
  | .mdma .. => True

/-- The datagram is passed on. -/
def Pbuf.Accepted (p : Pbuf) (copied : Nat) : Prop :=
  2 ≤ p.totLen ∧ ((p.len = p.totLen ∧ p.payload) ∨ copied = p.totLen)

/-- Nothing is parsed, or the datagram is as long as the packet and holds its fields. -/
def Holds (packets : Registry) (p : Pbuf) (copied : Nat) : Prop :=
  ∀ q, p.Accepted copied → packets (getId (memory p.bytes fun _ => 0)) = some q →
    q.size ≤ p.totLen ∧ q.Covered p.bytes

/-! ## What a value is read from -/

theorem readAll_congr {α : Type} (l : Layout α)
    (hread : ∀ d d' : Memory, (∀ i < l.size, d i = d' i) → l.read d = l.read d') (n : Nat)
    {d d' : Memory} (h : ∀ i < n * l.size, d i = d' i) : l.readAll n d = l.readAll n d' := by
  induction n generalizing d d' with
  | zero => rfl
  | succ n ih =>
    rw [Nat.succ_mul] at h
    have hrest : ∀ i < n * l.size, d.advance l.size i = d'.advance l.size i := fun i hi =>
      h (l.size + i) (by omega)
    rw [Layout.readAll, Layout.readAll, hread d d' fun i hi => h i (by omega), ih hrest]

theorem blockAt_congr {d d' : Memory} {n : Nat} (h : ∀ i < n, d i = d' i) :
    blockAt d n = blockAt d' n :=
  Subtype.ext (bytes_congr h).symm

theorem word32_congr (d d' : Memory) (h : ∀ i < word32Layout.size, d i = d' i) :
    word32Layout.read d = word32Layout.read d' := by
  show d 3 ++ d 2 ++ d 1 ++ d 0 = d' 3 ++ d' 2 ++ d' 1 ++ d' 0
  rw [h 0 (by decide), h 1 (by decide), h 2 (by decide), h 3 (by decide)]

theorem storeAll_congr (size : Nat) (targets : List Pointer) {d d' : Memory}
    (h : ∀ i < targets.length * size, d i = d' i) (objects : Objects) :
    storeAll size d targets objects = storeAll size d' targets objects := by
  induction targets generalizing d d' objects with
  | nil => rfl
  | cons target targets ih =>
    rw [List.length_cons, Nat.succ_mul] at h
    have hrest : ∀ i < targets.length * size, d.advance size i = d'.advance size i := fun i hi =>
      h (size + i) (by omega)
    rw [storeAll, storeAll, bytes_congr fun i hi => h i (by omega), ih hrest]

/-- `parse` of a value reads no more than `get_size` bytes. -/
theorem parseValue_congr (kind : PacketKind) (objects : Objects) {d d' : Memory} {f : Field}
    (h : ∀ i < valueSize kind f, d i = d' i) :
    parseValue kind d objects f = parseValue kind d' objects f := by
  cases f with
  | value size bytes =>
    have hsize : ∀ i < size, d i = d' i := h
    rw [parseValue, parseValue, blockAt_congr hsize]
  | pointers size targets =>
    cases kind with
    | stack =>
      simp only [parseValue]
      rw [readAll_congr word32Layout word32_congr targets.length h]
    | heap =>
      simp only [parseValue]
      rw [storeAll_congr size targets h]
  | container size elements =>
    simp only [parseValue]
    rw [readAll_congr (blockLayout size) (fun _ _ => blockAt_congr) elements.length h]
  | text chars =>
    have hsize : ∀ i < strlen chars + 1, d i = d' i := h
    simp only [parseValue]
    rw [bytes_congr hsize]

/-- What `parse` makes of the fields depends on what it reads. -/
theorem parseFields_congr (kind : PacketKind) {m m' : Memory} (fields : List Field) (place : Nat)
    (objects : Objects) (h : ∀ i ∈ readFields kind place (m.advance place) objects fields, m i = m' i) :
    Packet.parseFields kind (m.advance place) objects fields =
      Packet.parseFields kind (m'.advance place) objects fields := by
  induction fields generalizing place objects with
  | nil => rfl
  | cons f fields ih =>
    simp only [readFields, List.mem_append, List.mem_map, List.mem_range] at h
    have hvalue : parseValue kind (m.advance place) objects f =
        parseValue kind (m'.advance place) objects f :=
      parseValue_congr kind objects fun i hi => h _ (.inl ⟨i, hi, rfl⟩)
    have hadvance : ∀ (d : Memory) (n : Nat), (d.advance place).advance n = d.advance (place + n) :=
      fun d n => funext fun i => congrArg d (Nat.add_assoc place n i).symm
    rw [hadvance] at h
    have hrest := ih _ _ fun i hi => h i (.inr hi)
    simp only [Packet.parseFields, hadvance, ← hvalue, hrest]

/-- **The offsets of `reads`** decide what a packet makes of the memory it is given. -/
theorem parse_congr {m m' : Memory} (q : Registered) (h : ∀ i ∈ q.reads m, m i = m' i) :
    q.parse m = q.parse m' := by
  cases q with
  | plain p =>
    have hfields := parseFields_congr p.kind p.fields 2 p.objects h
    simp only [Registered.parse, Packet.parse, hfields]
  | mdma fields linked =>
    have hcopy : ∀ (fields : List (Σ size, Block size)) {d d' : Memory},
        (∀ i < (fields.map Sigma.fst).sum, d i = d' i) → copyBlocks d fields = copyBlocks d' fields := by
      intro fields
      induction fields with
      | nil => exact fun _ => rfl
      | cons f fields ih =>
        intro d d' hd
        rw [List.map_cons, List.sum_cons] at hd
        have hrest : ∀ i < (fields.map Sigma.fst).sum, d.advance f.1 i = d'.advance f.1 i :=
          fun i hi => hd (f.1 + i) (by omega)
        rw [copyBlocks, copyBlocks, blockAt_congr fun i hi => hd i (by omega), ih hrest]
    have hsize : ∀ i < (fields.map Sigma.fst).sum, m.advance 2 i = m'.advance 2 i := fun i hi =>
      h (2 + i) (List.mem_range.mpr (by show 2 + i < _ + 2; omega))
    rw [Registered.parse, Registered.parse, hcopy fields hsize]

/-! ## Reading inside the datagram -/

theorem advance_drop (bytes : List Byte) (beyond : Memory) (n : Nat) :
    ∃ beyond', (memory bytes beyond).advance n = memory (bytes.drop n) beyond' := by
  rcases Nat.le_total n bytes.length with hn | hn
  · have hadvance := advance_memory (bytes.take n) (bytes.drop n) beyond
    rw [List.take_append_drop, List.length_take, Nat.min_eq_left hn] at hadvance
    exact ⟨beyond, hadvance⟩
  · refine ⟨(memory bytes beyond).advance n, ?_⟩
    rw [List.drop_eq_nil_of_le hn]
    rfl

theorem bytes_take {bytes : List Byte} {n : Nat} (beyond : Memory) (h : n ≤ bytes.length) :
    (memory bytes beyond).bytes n = bytes.take n := by
  have hbytes := bytes_memory (bytes.take n) (bytes.drop n) beyond
  rwa [List.take_append_drop, List.length_take, Nat.min_eq_left h] at hbytes

/-- The bytes decide how long a value is once it is read. -/
theorem size_parseValue {kind : PacketKind} {bytes : List Byte} {f : Field} (beyond : Memory)
    (objects : Objects) (h : valueSize kind f ≤ bytes.length) :
    valueSize kind (parseValue kind (memory bytes beyond) objects f).1 = sizeAfter kind bytes f := by
  have hreadAll : ∀ {α : Type} (l : Layout α) (n : Nat) (d : Memory), (l.readAll n d).length = n := by
    intro α l n
    induction n with
    | zero => exact fun _ => rfl
    | succ n ih => exact fun d => congrArg Nat.succ (ih _)
  cases f with
  | value => rfl
  | pointers size targets =>
    cases kind with
    | stack =>
      show (word32Layout.readAll targets.length _).length * word32Layout.size = _
      rw [hreadAll]
      rfl
    | heap => rfl
  | container size elements =>
    show ((blockLayout size).readAll elements.length _).length * size = _
    rw [hreadAll]
    rfl
  | text chars =>
    have hsize : strlen chars + 1 ≤ bytes.length := h
    simp only [parseValue, valueSize, sizeAfter, bytes_take beyond hsize]

/-- The reads of fields from `place` on, of which `bytes` are left up to `total`. -/
theorem readFields_inside (kind : PacketKind) (fields : List Field) {bytes : List Byte}
    {place total : Nat} (hb : bytes.length = total - place) (beyond : Memory) (objects : Objects) :
    (∀ i ∈ readFields kind place (memory bytes beyond) objects fields, i < total) ↔
      Covers kind bytes fields := by
  induction fields generalizing bytes place beyond objects with
  | nil => simp [readFields, Covers]
  | cons f fields ih =>
    have hfirst : (∀ i ∈ (List.range (valueSize kind f)).map (place + ·), i < total) ↔
        valueSize kind f ≤ bytes.length := by
      simp only [List.mem_map, List.mem_range, forall_exists_index, and_imp,
        forall_apply_eq_imp_iff₂]
      constructor
      · intro h
        rcases Nat.eq_zero_or_pos (valueSize kind f) with hz | hpos
        · omega
        · have := h (valueSize kind f - 1) (by omega)
          omega
      · intro h i hi
        omega
    simp only [readFields, List.forall_mem_append, hfirst, Covers]
    refine and_congr_right fun hsize => ?_
    rw [size_parseValue beyond objects hsize]
    obtain ⟨beyond', hadvance⟩ := advance_drop bytes beyond (sizeAfter kind bytes f)
    rw [hadvance]
    exact ih (by rw [List.length_drop]; omega) beyond' _

theorem Registered.reads_inside (q : Registered) {bytes : List Byte} (beyond : Memory)
    (h : 2 ≤ bytes.length) :
    (∀ i ∈ q.reads (memory bytes beyond), i < bytes.length) ↔
      q.Covered bytes ∧ (∀ fields linked, q = .mdma fields linked → q.size ≤ bytes.length) := by
  cases q with
  | plain p =>
    obtain ⟨beyond', hadvance⟩ := advance_drop bytes beyond 2
    have hlength : (bytes.drop 2).length = bytes.length - 2 := List.length_drop
    have hinside := readFields_inside p.kind p.fields hlength beyond' p.objects
    rw [Registered.reads, hadvance, hinside]
    exact (and_iff_left nofun).symm
  | mdma fields linked =>
    have hrange : (∀ i ∈ List.range (Registered.mdma fields linked).size, i < bytes.length) ↔
        (Registered.mdma fields linked).size ≤ bytes.length := by
      simp only [List.mem_range]
      constructor
      · intro hi
        have := hi ((Registered.mdma fields linked).size - 1)
        omega
      · intro hi i hlt
        omega
    rw [Registered.reads, hrange]
    exact ⟨fun hi => ⟨trivial, fun _ _ _ => hi⟩, fun hi => hi.2 _ _ rfl⟩

/-- Fields that are covered and stay as they are take no more than the bytes. -/
theorem sum_le_of_unchanged {kind : PacketKind} {fields : List Field} {bytes : List Byte}
    {beyond : Memory} {objects : Objects} (hc : Covers kind bytes fields)
    (h : (Packet.parseFields kind (memory bytes beyond) objects fields).1 = fields) :
    (fields.map (valueSize kind)).sum ≤ bytes.length := by
  induction fields generalizing bytes beyond objects with
  | nil => exact Nat.zero_le _
  | cons f fields ih =>
    obtain ⟨hsize, hrest⟩ := hc
    simp only [Packet.parseFields, List.cons.injEq] at h
    have hafter : sizeAfter kind bytes f = valueSize kind f := by
      rw [← size_parseValue beyond objects hsize, h.1]
    rw [size_parseValue beyond objects hsize] at h
    obtain ⟨beyond', hadvance⟩ := advance_drop bytes beyond (sizeAfter kind bytes f)
    rw [hadvance] at h
    have := ih hrest h.2
    rw [hafter, List.length_drop] at this
    rw [List.map_cons, List.sum_cons]
    omega

/-- Without strings, what counts is the length. -/
theorem covers_iff {kind : PacketKind} {fields : List Field} {bytes : List Byte}
    (h : ∀ chars, .text chars ∉ fields) :
    Covers kind bytes fields ↔ (fields.map (valueSize kind)).sum ≤ bytes.length := by
  induction fields generalizing bytes with
  | nil => simp [Covers]
  | cons f fields ih =>
    have hafter : sizeAfter kind bytes f = valueSize kind f := by
      cases f with
      | text chars => exact absurd List.mem_cons_self (h chars)
      | _ => rfl
    rw [Covers, hafter, ih fun chars hc => h chars (List.mem_cons_of_mem _ hc), List.length_drop,
      List.map_cons, List.sum_cons]
    omega

/-! ## Reception -/

variable {packets : Registry} {p : Pbuf} {copied : Nat}

theorem getId_eq (beyond : Memory) (h : 2 ≤ p.totLen) :
    getId (memory p.bytes beyond) = getId (memory p.bytes fun _ => 0) := by
  have hlen : 2 ≤ p.bytes.length := h
  rw [getId, getId, memory_beyond beyond (fun _ => 0) (by omega : 0 < p.bytes.length),
    memory_beyond beyond (fun _ => 0) (by omega : 1 < p.bytes.length)]

theorem receiveCallback_accepted (h : p.Accepted copied) (beyond : Memory) :
    receiveCallback packets (some p) copied beyond = parseData packets (memory p.bytes beyond) := by
  obtain ⟨hlen, hcopy⟩ := h
  rw [receiveCallback, if_pos hlen]
  split
  next => rfl
  next hpayload => exact if_pos (hcopy.resolve_left hpayload)

theorem receiveCallback_refused (h : ¬ p.Accepted copied) (beyond : Memory) :
    receiveCallback packets (some p) copied beyond = { reads := [], packets } := by
  rw [receiveCallback]
  split
  next hlen =>
    obtain ⟨hpayload, hcopied⟩ := not_or.mp fun hcopy => h ⟨hlen, hcopy⟩
    rw [if_neg hpayload, if_neg hcopied]
  next => rfl

theorem size_le_of_contained {q : Registered} {beyond : Memory} (h : 2 ≤ p.totLen)
    (hinside : ∀ i ∈ q.reads (memory p.bytes beyond), i < p.totLen)
    (hsame : p.totLen < q.size → q.parse (memory p.bytes beyond) = q) : q.size ≤ p.totLen := by
  by_contra hn
  have hparse := hsame (Nat.lt_of_not_le hn)
  obtain ⟨hcovered, hmdma⟩ := (q.reads_inside beyond h).mp hinside
  cases q with
  | plain q =>
    obtain ⟨beyond', hadvance⟩ := advance_drop p.bytes beyond 2
    have hfields : (Packet.parseFields q.kind (memory (p.bytes.drop 2) beyond') q.objects
        q.fields).1 = q.fields := by
      rw [← hadvance]
      exact congrArg Packet.fields (Registered.plain.inj hparse)
    have hsum := sum_le_of_unchanged hcovered hfields
    rw [List.length_drop] at hsum
    have hsize : (q.fields.map (valueSize q.kind)).sum + 2 ≤ p.totLen := by
      have hlen : p.bytes.length = p.totLen := rfl
      omega
    exact hn hsize
  | mdma fields linked => exact hn (hmdma _ _ rfl)

/-- **Datagrams.** What is read of a datagram lies in it, and one that is too short changes
nothing, if and only if a datagram that is parsed is as long as its packet and holds the
fields of it. -/
theorem contained_iff (packets : Registry) (p : Pbuf) (copied : Nat) (beyond : Memory) :
    Contained packets p (receiveCallback packets (some p) copied beyond) ↔
      Holds packets p copied := by
  by_cases ha : p.Accepted copied
  · have hid := getId_eq beyond ha.1
    rw [receiveCallback_accepted ha]
    cases hq : packets (getId (memory p.bytes fun _ => 0)) with
    | none =>
      have hparse : parseData packets (memory p.bytes beyond) = { reads := [0, 1], packets } := by
        rw [parseData, hid, hq]
      rw [hparse]
      refine iff_of_true ⟨?_, fun _ _ _ _ => rfl⟩ fun q _ hq' => by rw [hq] at hq'; cases hq'
      have := ha.1
      simp only [List.mem_cons, List.not_mem_nil, or_false]
      omega
    | some q =>
      have hparse : parseData packets (memory p.bytes beyond) =
          { reads := [0, 1] ++ q.reads (memory p.bytes beyond)
            packets := Function.update packets (getId (memory p.bytes fun _ => 0))
              (some (q.parse (memory p.bytes beyond))) } := by
        rw [parseData, hid, hq]
      rw [hparse]
      constructor
      · intro hc q' _ hq'
        obtain rfl : q = q' := Option.some.inj (hq.symm.trans hq')
        have hinside : ∀ i ∈ q.reads (memory p.bytes beyond), i < p.totLen := fun i hi =>
          hc.inside i (List.mem_append_right _ hi)
        refine ⟨size_le_of_contained ha.1 hinside fun hlt => ?_,
          ((q.reads_inside beyond ha.1).mp hinside).1⟩
        have hsame : Function.update packets (getId (memory p.bytes fun _ => 0))
            (some (q.parse (memory p.bytes beyond))) (getId (memory p.bytes fun _ => 0)) =
              packets (getId (memory p.bytes fun _ => 0)) :=
          congrFun (hc.short q ha.1 hq hlt) _
        rw [Function.update_self, hq] at hsame
        exact Option.some.inj hsame
      · intro hh
        obtain ⟨hsize, hcovered⟩ := hh q ha hq
        refine ⟨fun i hi => ?_, fun q' _ hq' hlt => ?_⟩
        · rcases List.mem_append.mp hi with hi | hi
          · have := ha.1
            simp only [List.mem_cons, List.not_mem_nil, or_false] at hi
            omega
          · exact (q.reads_inside beyond ha.1).mpr ⟨hcovered, fun _ _ _ => hsize⟩ i hi
        · obtain rfl : q = q' := Option.some.inj (hq.symm.trans hq')
          omega
  · rw [receiveCallback_refused ha]
    exact iff_of_true ⟨fun _ hi => absurd hi List.not_mem_nil, fun _ _ _ _ => rfl⟩
      fun _ ha' => absurd ha' ha

/-- An id alone, where a packet of one word is registered. -/
theorem id_alone_not_contained :
    ¬ ∀ (packets : Registry) (p : Pbuf) (copied : Nat) (beyond : Memory),
      Contained packets p (receiveCallback packets (some p) copied beyond) := by
  intro h
  have hc := h
    (fun id => if id = 7 then
      some (.plain (construct .stack 7 [.value 4 ⟨[1, 2, 3, 4], rfl⟩] (fun _ _ => 0) fun _ => 0))
      else none)
    { chain := [[7, 0]], payload := true } 0 fun _ => 0
  exact absurd (hc.inside 2 (by decide)) (by decide)

end StLib.Communication.Datagrams
