import StLib.Communication.Packets

/-! # Building and parsing

`build` writes as many bytes as `get_size` says, all of them in the buffer, whatever was
built before. What is parsed is what was built, but for the pointers in a `StackPacket`
and for what a string holds behind its first terminator. -/
namespace StLib.Communication.PacketRoundTrip

open StLib.Base.Bytes StLib.Base.FixedLayout StLib.Base.Runs StLib.Communication.Packets

/-! ## What is built -/

def encodeFields (kind : PacketKind) (objects : Objects) (fields : List Field) : List Byte :=
  fields.flatMap (copyTo kind objects)

/-- The bytes of a packet. -/
def frame (p : Packet) : List Byte := bytesOfWord p.id ++ encodeFields p.kind p.objects p.fields

/-- `build` writes the bytes of the packet, `get_size` of them, at the start of a buffer
that holds them. -/
structure Fits (p : Packet) (garbage : Memory) : Prop where
  ends : (p.written garbage).2 = p.getSize
  inside : p.getSize ≤ (p.allocate garbage).length
  count : (frame p).length = p.getSize
  bytes : (p.written garbage).1 = frame p ++ (p.allocate garbage).drop p.getSize

theorem length_encodeFields (kind : PacketKind) (objects : Objects) (fields : List Field) :
    (encodeFields kind objects fields).length = (fields.map (valueSize kind)).sum := by
  simp only [encodeFields, List.length_flatMap, length_copyTo]

theorem write_write {buffer : List Byte} {data : Nat} (a b : List Byte)
    (h : data ≤ buffer.length) :
    Packet.write (Packet.write buffer data a) (data + a.length) b =
      Packet.write buffer data (a ++ b) := by
  have hlen : (buffer.take data ++ a).length = data + a.length := by
    rw [List.length_append, List.length_take, Nat.min_eq_left h]
  have htake : (buffer.take data ++ a ++ buffer.drop (data + a.length)).take (data + a.length) =
      buffer.take data ++ a := by
    rw [← hlen, List.take_left]
  have hdrop : (buffer.take data ++ a ++ buffer.drop (data + a.length)).drop
      (data + a.length + b.length) = buffer.drop (data + a.length + b.length) := by
    rw [← List.drop_drop, ← hlen, List.drop_left, hlen, List.drop_drop]
  rw [Packet.write, Packet.write, Packet.write, htake, hdrop, List.append_assoc _ a b,
    List.length_append, Nat.add_assoc]

theorem length_write_ge {buffer : List Byte} {data : Nat} (a : List Byte)
    (h : data ≤ buffer.length) : data + a.length ≤ (Packet.write buffer data a).length := by
  rw [Packet.write, List.length_append, List.length_append, List.length_take, Nat.min_eq_left h]
  omega

theorem writeFields_eq (kind : PacketKind) (objects : Objects) (fields : List Field) {data : Nat}
    {buffer : List Byte} (h : data ≤ buffer.length) :
    Packet.writeFields kind objects data buffer fields =
      (Packet.write buffer data (encodeFields kind objects fields),
        data + (encodeFields kind objects fields).length) := by
  induction fields generalizing data buffer with
  | nil => simp [Packet.writeFields, encodeFields, Packet.write]
  | cons f fields ih =>
    have hlen := length_copyTo kind objects f
    have hcons : encodeFields kind objects (f :: fields) =
        copyTo kind objects f ++ encodeFields kind objects fields := rfl
    rw [Packet.writeFields, ← hlen, ih (length_write_ge _ h), write_write _ _ h, hcons,
      List.length_append, Nat.add_assoc]

theorem written_eq (p : Packet) (garbage : Memory) :
    p.written garbage = (Packet.write (p.allocate garbage) 0 (frame p), (frame p).length) := by
  have hid : (bytesOfWord p.id).length = 2 := rfl
  have hlen := length_write_ge (bytesOfWord p.id) (Nat.zero_le (p.allocate garbage).length)
  have hw := write_write (bytesOfWord p.id) (encodeFields p.kind p.objects p.fields)
    (Nat.zero_le (p.allocate garbage).length)
  rw [hid, Nat.zero_add] at hlen hw
  rw [Packet.written, writeFields_eq _ _ _ hlen, hw, frame, List.length_append, hid]

/-! ## The buffer is large enough -/

/-- The buffer of a packet that owns it is as long as its constructor made it. -/
def Sound (p : Packet) : Prop :=
  ownsBuffer p.kind p.fields → p.size = bufferLength p.fields + 2 ∧
    ∃ buffer, p.buffer = some buffer ∧ buffer.length = bufferLength p.fields + 2

theorem sizeof_eq {f : Field} (h : f.isContainer = false) : f.sizeof = valueSize .stack f := by
  cases f with
  | value => rfl
  | pointers => rfl
  | container => cases h
  | text => cases h

/-- The length found at compile time is the one `build` finds. -/
theorem bufferLength_eq {kind : PacketKind} {fields : List Field} (h : ownsBuffer kind fields) :
    bufferLength fields = (fields.map (valueSize kind)).sum := by
  have ho : kind = .stack ∧ (fields = [] ∨ bufferLength fields ≠ 0) := by
    simpa [ownsBuffer] using h
  obtain ⟨rfl, rfl | h⟩ := ho
  · rfl
  · have hno : hasContainer fields = false := by
      by_contra hc
      exact h (if_pos (by simpa using hc))
    rw [bufferLength, hno, if_neg (by decide), totalSizeof]
    refine congrArg List.sum (List.map_congr_left fun f hf => sizeof_eq ?_)
    simpa using List.any_eq_false.mp hno f hf

theorem getSize_eq {p : Packet} (h : Sound p) :
    p.getSize = (p.fields.map (valueSize p.kind)).sum + 2 := by
  rw [Packet.getSize]
  split
  next ho => rw [(h ho).1, bufferLength_eq ho]
  next => rfl

theorem getSize_le {p : Packet} (h : Sound p) (garbage : Memory) :
    p.getSize ≤ (p.allocate garbage).length := by
  have hnew : (garbage.bytes p.getSize).length = p.getSize := by
    rw [Memory.bytes, List.length_map, List.length_range]
  rw [Packet.allocate]
  split
  next => exact Nat.le_of_eq hnew.symm
  next buffer hb =>
    split
    next ho =>
      obtain ⟨hsize, _, hb', hlen⟩ := h ho
      cases hb.symm.trans hb'
      rw [Packet.getSize, if_pos ho, hsize, hlen]
    next =>
      split
      next => exact Nat.le_of_eq hnew.symm
      next hn => omega

theorem fits {p : Packet} (h : Sound p) (garbage : Memory) : Fits p garbage := by
  have hlen : (frame p).length = p.getSize := by
    rw [frame, List.length_append, length_encodeFields, getSize_eq h]
    exact Nat.add_comm ..
  have hle := getSize_le h garbage
  have hw := written_eq p garbage
  refine ⟨by rw [hw, hlen], hle, hlen, ?_⟩
  rw [hw, Packet.write, hlen, Nat.zero_add]
  rfl

theorem SameType.isContainer_eq {f f' : Field} (h : SameType f f') :
    f'.isContainer = f.isContainer := by
  cases h <;> rfl

theorem SameType.sizeof_eq {f f' : Field} (h : SameType f f') : f'.sizeof = f.sizeof := by
  cases h with
  | pointers h => rw [Field.sizeof, Field.sizeof, h]
  | _ => rfl

theorem sameTypes_bufferLength {fields fields' : List Field}
    (h : List.Forall₂ SameType fields fields') : bufferLength fields' = bufferLength fields := by
  have hmap : fields'.map Field.isContainer = fields.map Field.isContainer ∧
      fields'.map Field.sizeof = fields.map Field.sizeof := by
    induction h with
    | nil => exact ⟨rfl, rfl⟩
    | cons h _ ih =>
      simp only [List.map_cons, SameType.isContainer_eq h, SameType.sizeof_eq h, ih.1, ih.2,
        and_self]
  have hany : hasContainer fields' = hasContainer fields := by
    have := congrArg (List.any · id) hmap.1
    rwa [List.any_map, List.any_map] at this
  rw [bufferLength, bufferLength, hany, totalSizeof, totalSizeof, hmap.2]

theorem sameTypes_owns {kind : PacketKind} {fields fields' : List Field}
    (h : List.Forall₂ SameType fields fields') :
    ownsBuffer kind fields' = ownsBuffer kind fields := by
  have hnil : fields'.isEmpty = fields.isEmpty := by
    cases h <;> rfl
  rw [ownsBuffer, ownsBuffer, sameTypes_bufferLength h, hnil]

theorem sound_construct (kind : PacketKind) (id : BitVec 16) (fields : List Field)
    (objects : Objects) (garbage : Memory) : Sound (construct kind id fields objects garbage) := by
  unfold construct
  split
  next =>
    exact fun _ => ⟨rfl, _, rfl, by rw [Memory.bytes, List.length_map, List.length_range]⟩
  next ho => exact fun h => absurd h ho

theorem sound_step {p q : Packet} {op : Op} (h : Sound p) (hs : Step p op q) : Sound q := by
  cases hs with
  | build garbage =>
    intro ho
    obtain ⟨hsize, buffer, hb, hlen⟩ := h ho
    have hget : p.getSize = bufferLength p.fields + 2 := (if_pos ho).trans hsize
    have hf := fits h garbage
    have halloc : p.allocate garbage = buffer := by
      rw [Packet.allocate, hb]
      exact if_pos ho
    refine ⟨hget, _, rfl, ?_⟩
    show (p.written garbage).1.length = bufferLength p.fields + 2
    rw [hf.bytes, List.length_append, hf.count, halloc, List.length_drop, hlen, hget]
    omega
  | assign ht =>
    intro ho
    obtain ⟨hsize, buffer, hb, hlen⟩ := h (by rwa [← sameTypes_owns ht])
    rw [← sameTypes_bufferLength ht] at hsize hlen
    exact ⟨hsize, buffer, hb, hlen⟩

/-! ## What is parsed -/

/-- What a variable holds. What an array of pointers holds is what they point to. -/
def view (objects : Objects) : Field → List Byte
  | .value _ bytes => bytes.val
  | .pointers size targets => pointees objects size targets
  | .container size elements => (blockLayout size).encodeAll elements
  | .text chars => chars

/-- A variable of the sender and the receiver's: they have one type, containers also one
length, strings one up to the terminator too. Where the receiver points to a variable,
the sender points to its image. -/
inductive Alike (image : Pointer → Pointer) : Field → Field → Prop
  | value {size : Nat} (bytes bytes' : Block size) :
      Alike image (.value size bytes) (.value size bytes')
  | pointers (size : Nat) (targets : List Pointer) :
      Alike image (.pointers size (targets.map image)) (.pointers size targets)
  | container {size : Nat} {elements elements' : List (Block size)}
      (h : elements'.length = elements.length) :
      Alike image (.container size elements) (.container size elements')
  | text {chars chars' : List Byte} (hlen : chars'.length = chars.length)
      (hstrlen : strlen chars' = strlen chars) : Alike image (.text chars) (.text chars')

/-- Whatever such a receiver held before, it holds what the sender held once it has parsed
the bytes that the sender built. -/
def RoundTrips (p : Packet) : Prop :=
  ∀ (garbage beyond : Memory) (image : Pointer → Pointer) (receiver : Packet),
    receiver.kind = p.kind → List.Forall₂ (Alike image) p.fields receiver.fields →
      let parsed := receiver.parse (memory ((p.written garbage).1.take p.getSize) beyond)
      parsed.fields.map (view parsed.objects) = p.fields.map (view p.objects)

/-- The variables that a `StackPacket` and a string leave out are not there. -/
def Restorable (kind : PacketKind) : Field → Prop
  | .pointers size targets => kind = .stack → size = 0 ∨ targets = []
  | .text chars => chars.length ≤ strlen chars + 1
  | _ => True

/-- What a variable of the receiver is after it is parsed. -/
def received (kind : PacketKind) : Field → Field → Field
  | .pointers size targets, .pointers size' targets' =>
    match kind with
    | .stack => .pointers size targets
    | .heap => .pointers size' targets'
  | .text chars, .text chars' =>
    .text (chars.take (strlen chars + 1) ++ chars'.drop (strlen chars + 1))
  | f, _ => f

/-- What parsing makes of the variables that the receiver points to. -/
structure Carried (kind : PacketKind) (image : Pointer → Pointer) (sent before after : Objects)
    (fields : List Field) : Prop where
  toward : ∀ r i, after r i = before r i ∨ after r i = sent (image r) i
  reached : kind = .heap → ∀ {size targets}, .pointers size targets ∈ fields →
    ∀ r ∈ targets, ∀ i < size, after r i = sent (image r) i
  still : kind = .stack → after = before

variable {kind : PacketKind} {image : Pointer → Pointer} {sent before between after : Objects}
variable {f f' : Field} {fields fields' : List Field}

theorem Carried.refl (h : ∀ size targets, f' = .pointers size targets → kind = .stack) :
    Carried kind image sent before before [f'] where
  toward _ _ := .inl rfl
  reached hk size targets hf := by
    have := h size targets (List.mem_singleton.mp hf).symm
    rw [hk] at this
    cases this
  still _ := rfl

/-- What has reached the receiver stays there. -/
theorem Carried.cons (h : Carried kind image sent before between [f'])
    (h' : Carried kind image sent between after fields') :
    Carried kind image sent before after (f' :: fields') where
  toward r i := by
    rcases h'.toward r i with he | he
    · rw [he]; exact h.toward r i
    · exact .inr he
  reached hk size targets hf r hr i hi := by
    rcases List.mem_cons.mp hf with rfl | hf
    · have hb := h.reached hk List.mem_cons_self r hr i hi
      rcases h'.toward r i with he | he
      · rw [he]; exact hb
      · exact he
    · exact h'.reached hk hf r hr i hi
  still hk := (h'.still hk).trans (h.still hk)

/-! ### Variables behind pointers -/

theorem store_self (objects : Objects) (r : Pointer) {bytes : List Byte} {i : Nat}
    (h : i < bytes.length) : store objects r bytes r i = bytes[i] := by
  rw [store, Function.update_self, memory_of_lt h]

theorem store_toward (objects : Objects) (r q : Pointer) (bytes : List Byte) (i : Nat) :
    store objects r bytes q i = objects q i ∨
      q = r ∧ ∃ h : i < bytes.length, store objects r bytes q i = bytes[i] := by
  by_cases hq : q = r
  · subst hq
    by_cases hi : i < bytes.length
    · exact .inr ⟨rfl, hi, store_self objects q hi⟩
    · refine .inl ?_
      rw [store, Function.update_self, memory, List.getElem?_eq_none (by omega)]
      show objects q (bytes.length + (i - bytes.length)) = objects q i
      rw [Nat.add_sub_cancel' (by omega)]
  · exact .inl (by rw [store, Function.update_of_ne hq])

theorem storeAll_carried (sent : Objects) (image : Pointer → Pointer) (size : Nat) (targets : List Pointer) (more : List Byte)
    (beyond : Memory) (before : Objects) :
    let after := storeAll size (memory (pointees sent size (targets.map image) ++ more) beyond)
      targets before
    (∀ r i, after r i = before r i ∨ after r i = sent (image r) i) ∧
      ∀ r ∈ targets, ∀ i < size, after r i = sent (image r) i := by
  induction targets generalizing before with
  | nil => exact ⟨fun _ _ => .inl rfl, fun _ h => absurd h List.not_mem_nil⟩
  | cons r targets ih =>
    have hlen : ((sent (image r)).bytes size).length = size := by
      rw [Memory.bytes, List.length_map, List.length_range]
    have hcons : pointees sent size ((r :: targets).map image) ++ more =
        (sent (image r)).bytes size ++ (pointees sent size (targets.map image) ++ more) :=
      List.append_assoc ..
    have hbytes := bytes_memory ((sent (image r)).bytes size)
      (pointees sent size (targets.map image) ++ more) beyond
    have hadvance := advance_memory ((sent (image r)).bytes size)
      (pointees sent size (targets.map image) ++ more) beyond
    rw [hlen] at hbytes hadvance
    have hget : ∀ i (hi : i < ((sent (image r)).bytes size).length),
        ((sent (image r)).bytes size)[i] = sent (image r) i := fun i hi => by
      simp [Memory.bytes]
    simp only [hcons, storeAll, hbytes, hadvance]
    obtain ⟨htoward, hreached⟩ := ih (store before r ((sent (image r)).bytes size))
    refine ⟨fun q i => ?_, fun q hq i hi => ?_⟩
    · rcases htoward q i with he | he
      · rw [he]
        rcases store_toward before r q ((sent (image r)).bytes size) i with hs | ⟨rfl, hi, hs⟩
        · exact .inl hs
        · exact .inr (hs.trans (hget i hi))
      · exact .inr he
    · rcases List.mem_cons.mp hq with rfl | hq
      · rcases htoward q i with he | he
        · rw [he, store_self before q (by rwa [hlen]), hget]
        · exact he
      · exact hreached q hq i hi

/-! ### Strings -/

theorem strlen_cons (c : Byte) (chars : List Byte) :
    strlen (c :: chars) = if c = 0#8 then 0 else strlen chars + 1 := by
  by_cases hc : c = 0#8
  · simp [strlen, hc]
  · simp [strlen, hc]

/-- What follows the terminator makes no difference to the length. -/
theorem strlen_take_append (chars rest : List Byte)
    (h : rest = [] ∨ strlen chars < chars.length) :
    strlen (chars.take (strlen chars + 1) ++ rest) = strlen chars := by
  induction chars with
  | nil =>
    rcases h with rfl | h
    · rfl
    · exact absurd h (Nat.not_lt_zero _)
  | cons c chars ih =>
    by_cases hc : c = 0#8
    · rw [strlen_cons, if_pos hc, Nat.zero_add, List.take_succ_cons, List.cons_append, strlen_cons,
        if_pos hc]
    · rw [strlen_cons, if_neg hc, List.length_cons] at h
      rw [strlen_cons, if_neg hc, List.take_succ_cons, List.cons_append, strlen_cons, if_neg hc,
        ih (h.imp_right Nat.lt_of_succ_lt_succ)]

/-- A string is full, or the bytes of it that are sent are its own. -/
theorem rest_nil_or_lt {chars chars' : List Byte} (h : chars'.length = chars.length) :
    chars'.drop (strlen chars + 1) = [] ∨ strlen chars < chars.length := by
  rcases Nat.lt_or_ge (strlen chars) chars.length with hlt | hge
  · exact .inr hlt
  · exact .inl (List.drop_eq_nil_of_le (by omega))

theorem take_received {chars chars' : List Byte} (h : chars'.length = chars.length) :
    ((chars ++ [0#8]).take (strlen chars + 1) ++ chars'.drop (strlen chars + 1)).take
      chars'.length = chars.take (strlen chars + 1) ++ chars'.drop (strlen chars + 1) := by
  rcases Nat.lt_or_ge (strlen chars) chars.length with hlt | hge
  · have htake : (chars ++ [0#8]).take (strlen chars + 1) = chars.take (strlen chars + 1) :=
      List.take_append_of_le_length (by omega)
    rw [htake, List.take_of_length_le]
    rw [List.length_append, List.length_take, List.length_drop]
    omega
  · rw [List.drop_eq_nil_of_le (by omega), List.append_nil, List.append_nil, h,
      List.take_take, Nat.min_eq_left (by omega), List.take_left, List.take_of_length_le (by omega)]

/-! ### The parser -/

theorem received_size (h : Alike image f f') : valueSize kind (received kind f f') =
    valueSize kind f := by
  cases h with
  | value => rfl
  | pointers size targets =>
    cases kind with
    | stack => rfl
    | heap => simp only [received, valueSize, List.length_map]
  | container => rfl
  | text hlen =>
    show strlen (_ ++ _) + 1 = _
    rw [strlen_take_append _ _ (rest_nil_or_lt hlen)]
    rfl

theorem parseValue_built (kind : PacketKind) (sent : Objects) (h : Alike image f f') (more : List Byte) (beyond : Memory)
    (before : Objects) :
    ∃ after, parseValue kind (memory (copyTo kind sent f ++ more) beyond) before f' =
        (received kind f f', after) ∧ Carried kind image sent before after [f'] := by
  cases h with
  | value bytes bytes' =>
    refine ⟨before, ?_, .refl (by simp)⟩
    exact congrArg (fun b => (Field.value _ b, before))
      ((blockLayout _).read_encode bytes more beyond)
  | pointers size targets =>
    cases kind with
    | stack =>
      refine ⟨before, ?_, .refl fun _ _ _ => rfl⟩
      have hread := word32Layout.readAll_encodeAll (targets.map image) more beyond
      rw [List.length_map] at hread
      simp only [parseValue, received, copyTo, hread]
    | heap =>
      obtain ⟨htoward, hreached⟩ := storeAll_carried sent image size targets more beyond before
      refine ⟨_, rfl, ⟨htoward, fun _ {size' targets'} hf => ?_, fun hk => by cases hk⟩⟩
      cases List.mem_singleton.mp hf
      exact hreached
  | @container size elements elements' hlen =>
    refine ⟨before, ?_, .refl (by simp)⟩
    have hread := (blockLayout size).readAll_encodeAll elements more beyond
    simp only [parseValue, received, copyTo, hlen, hread]
  | @text chars chars' hlen hstrlen =>
    refine ⟨before, ?_, .refl (by simp)⟩
    have hcount : ((chars ++ [0#8]).take (strlen chars + 1)).length = strlen chars + 1 := by
      have := strlen_le chars
      rw [List.length_take, List.length_append, List.length_singleton]
      omega
    have hbytes := bytes_memory ((chars ++ [0#8]).take (strlen chars + 1)) more beyond
    rw [hcount] at hbytes
    simp only [parseValue, received, copyTo, hstrlen, hbytes, take_received hlen]

theorem parseFields_built (kind : PacketKind) (sent : Objects)
    (h : List.Forall₂ (Alike image) fields fields') (more : List Byte) (beyond : Memory)
    (before : Objects) :
    ∃ after, Packet.parseFields kind (memory (encodeFields kind sent fields ++ more) beyond) before
        fields' = (List.zipWith (received kind) fields fields', after) ∧
      Carried kind image sent before after fields' := by
  induction h generalizing before with
  | nil => exact ⟨before, rfl, ⟨fun _ _ => .inl rfl, fun _ _ _ hf => absurd hf List.not_mem_nil,
      fun _ => rfl⟩⟩
  | @cons f f' fields fields' hf _ ih =>
    have hcons : encodeFields kind sent (f :: fields) ++ more =
        copyTo kind sent f ++ (encodeFields kind sent fields ++ more) := List.append_assoc ..
    have hadvance := advance_memory (copyTo kind sent f) (encodeFields kind sent fields ++ more)
      beyond
    rw [length_copyTo] at hadvance
    obtain ⟨between, hvalue, hcarried⟩ := parseValue_built kind sent hf
      (encodeFields kind sent fields ++ more) beyond before
    obtain ⟨after, hrest, hcarried'⟩ := ih between
    refine ⟨after, ?_, hcarried.cons hcarried'⟩
    simp only [hcons, Packet.parseFields, hvalue, received_size hf, hadvance, hrest,
      List.zipWith_cons_cons]

/-- What the receiver makes of a packet. -/
theorem parse_built {p receiver : Packet} (hs : Sound p) (hk : receiver.kind = p.kind)
    (h : List.Forall₂ (Alike image) p.fields receiver.fields) (garbage beyond : Memory) :
    ∃ after,
      receiver.parse (memory ((p.written garbage).1.take p.getSize) beyond) =
        { receiver with
          fields := List.zipWith (received p.kind) p.fields receiver.fields, objects := after } ∧
      Carried p.kind image p.objects receiver.objects after receiver.fields := by
  have hf := fits hs garbage
  have hsent : (p.written garbage).1.take p.getSize = frame p := by
    rw [hf.bytes, ← hf.count, List.take_left]
  have hadvance := advance_memory (bytesOfWord p.id) (encodeFields p.kind p.objects p.fields) beyond
  obtain ⟨after, hparse, hcarried⟩ := parseFields_built p.kind p.objects h [] beyond
    receiver.objects
  rw [List.append_nil, ← hadvance] at hparse
  refine ⟨after, ?_, hcarried⟩
  rw [hsent]
  show ({ receiver with
    fields := (Packet.parseFields receiver.kind _ receiver.objects receiver.fields).1,
    objects := (Packet.parseFields receiver.kind _ receiver.objects receiver.fields).2 } : Packet) = _
  rw [hk]
  exact congrArg (fun r : List Field × Objects =>
    ({ receiver with kind := p.kind, fields := r.1, objects := r.2 } : Packet)) hparse

/-! ## What is restored -/

theorem view_received {sent : Objects} (h : Alike image f f') (hr : Restorable kind f)
    (hc : Carried kind image sent before after fields') (hf : f' ∈ fields') :
    view after (received kind f f') = view sent f := by
  cases h with
  | value => rfl
  | pointers size targets =>
    cases kind with
    | stack =>
      have hnil : ∀ objects, pointees objects size (targets.map image) = [] := fun objects => by
        rw [← List.length_eq_zero_iff, length_pointees]
        rcases hr rfl with hz | hn
        · rw [hz, Nat.mul_zero]
        · rw [hn, List.length_nil, Nat.zero_mul]
      exact (hnil after).trans (hnil sent).symm
    | heap =>
      show pointees after size targets = pointees sent size (targets.map image)
      rw [pointees, pointees, List.flatMap_map]
      refine List.flatMap_congr fun r hr => ?_
      exact (bytes_congr fun i hi => hc.reached rfl hf r hr i hi).symm
  | container => rfl
  | @text chars chars' hlen =>
    show chars.take (strlen chars + 1) ++ chars'.drop (strlen chars + 1) = chars
    rw [List.take_of_length_le hr, List.drop_eq_nil_of_le (by rw [hlen]; exact hr),
      List.append_nil]

theorem roundTrips_of_restorable {p : Packet} (hs : Sound p)
    (hr : ∀ f ∈ p.fields, Restorable p.kind f) : RoundTrips p := by
  intro garbage beyond image receiver hk h
  obtain ⟨after, hparse, hc⟩ := parse_built hs hk h garbage beyond
  show List.map _ (receiver.parse _).fields = _
  rw [hparse]
  show (List.zipWith (received p.kind) p.fields receiver.fields).map (view after) = _
  have hview : ∀ {fields fields' : List Field}, List.Forall₂ (Alike image) fields fields' →
      (∀ f ∈ fields, Restorable p.kind f) → (∀ f' ∈ fields', f' ∈ receiver.fields) →
        (List.zipWith (received p.kind) fields fields').map (view after) =
          fields.map (view p.objects) := by
    intro fields fields' h
    induction h with
    | nil => exact fun _ _ => rfl
    | cons hf _ ih =>
      intro hr hmem
      rw [List.zipWith_cons_cons, List.map_cons, List.map_cons,
        view_received hf (hr _ List.mem_cons_self) hc (hmem _ List.mem_cons_self),
        ih (fun f hf => hr f (List.mem_cons_of_mem _ hf))
          (fun f hf => hmem f (List.mem_cons_of_mem _ hf))]
  exact hview h hr fun _ hf => hf

/-! ### A receiver that shows what is left out -/

/-- The variable of a receiver that holds other characters behind the terminator. -/
def spoil : Field → Field
  | .text chars =>
    .text (chars.take (strlen chars + 1) ++ (chars.drop (strlen chars + 1)).map (· + 1))
  | f => f

def spoiled (p : Packet) : Packet :=
  { p with fields := p.fields.map spoil, objects := fun r i => p.objects r i + 1 }

theorem alike_spoil (f : Field) : Alike id f (spoil f) := by
  cases f with
  | value size bytes => exact .value bytes bytes
  | pointers size targets =>
    have := (Alike.pointers size targets : Alike id _ _)
    rwa [List.map_id] at this
  | container size elements => exact .container rfl
  | text chars =>
    have hlen : (chars.take (strlen chars + 1) ++
        (chars.drop (strlen chars + 1)).map (· + 1)).length = chars.length := by
      rw [List.length_append, List.length_map, ← List.length_append, List.take_append_drop]
    refine .text hlen (strlen_take_append _ _ ?_)
    rcases rest_nil_or_lt (rfl : chars.length = chars.length) with hn | hlt
    · exact .inl (by rw [hn]; rfl)
    · exact .inr hlt

theorem alike_spoiled (p : Packet) : List.Forall₂ (Alike id) p.fields (spoiled p).fields :=
  List.forall₂_map_right_iff.mpr (List.forall₂_same.mpr fun f _ => alike_spoil f)

theorem restorable_of_view {p : Packet} {after : Objects} {fields : List Field} {f : Field}
    (hc : Carried p.kind id p.objects (spoiled p).objects after fields)
    (h : view after (received p.kind f (spoil f)) = view p.objects f) : Restorable p.kind f := by
  cases f with
  | value => trivial
  | container => trivial
  | pointers size targets =>
    intro hk
    by_contra hn
    obtain ⟨hsize, htargets⟩ := not_or.mp hn
    obtain ⟨size, rfl⟩ := Nat.exists_eq_add_one_of_ne_zero hsize
    obtain ⟨r, targets, rfl⟩ := List.exists_cons_of_ne_nil htargets
    have hfirst : ∀ objects : Objects,
        (pointees objects (size + 1) (r :: targets)).head? = some (objects r 0) := fun objects => by
      simp [pointees, Memory.bytes, List.range_succ_eq_map]
    rw [hk] at h
    have hview : pointees after (size + 1) (r :: targets) =
        pointees p.objects (size + 1) (r :: targets) := h
    have he := congrArg List.head? hview
    rw [hfirst, hfirst, hc.still hk] at he
    have hne : p.objects r 0 + 1 = p.objects r 0 := Option.some.inj he
    grind
  | text chars =>
    by_contra hn
    have hlt : strlen chars + 1 < chars.length := Nat.lt_of_not_le hn
    have hlen : (chars.take (strlen chars + 1)).length = strlen chars + 1 := by
      rw [List.length_take, Nat.min_eq_left hlt.le]
    have hdrop : (chars.take (strlen chars + 1) ++
        (chars.drop (strlen chars + 1)).map (· + 1)).drop (strlen chars + 1) =
          (chars.drop (strlen chars + 1)).map (· + 1) := by
      rw [List.drop_append_of_le_length (Nat.le_of_eq hlen.symm),
        List.drop_eq_nil_of_le (Nat.le_of_eq hlen), List.nil_append]
    have he : chars.take (strlen chars + 1) ++ (chars.drop (strlen chars + 1)).map (· + 1) =
        chars.take (strlen chars + 1) ++ chars.drop (strlen chars + 1) := by
      rw [List.take_append_drop, ← hdrop]
      exact h
    have hmap := List.append_cancel_left he
    rw [List.drop_eq_getElem_cons hlt, List.map_cons] at hmap
    have hne := (List.cons.inj hmap).1
    grind

theorem restorable_of_roundTrips {p : Packet} (hs : Sound p) (h : RoundTrips p) :
    ∀ f ∈ p.fields, Restorable p.kind f := by
  obtain ⟨after, hparse, hc⟩ :=
    parse_built hs (rfl : (spoiled p).kind = p.kind) (alike_spoiled p) (fun _ => 0) (fun _ => 0)
  have hview := h (fun _ => 0) (fun _ => 0) id (spoiled p) rfl (alike_spoiled p)
  simp only [hparse] at hview
  rw [show (spoiled p).fields = p.fields.map spoil from rfl, List.zipWith_map_right,
    List.zipWith_self, List.map_map] at hview
  exact fun f hf => restorable_of_view hc (List.map_inj_left.mp hview f hf)

/-! ## Every run -/

variable {id : BitVec 16} {objects : Objects} {garbage : Memory} {ops : List Op} {p : Packet}

/-- **Packets.** Whatever is built, assigned and resized, `build` writes the bytes of the
packet into its buffer. They restore every packet of such fields, but for the pointers of
a `StackPacket` and for what a string holds behind its terminator. -/
theorem packet_round_trip
    (r : Run Step (fun _ _ => True) (construct kind id fields objects garbage) ops p) :
    (∀ garbage, Fits p garbage) ∧ (RoundTrips p ↔ ∀ f ∈ p.fields, Restorable p.kind f) := by
  have hs : Sound p :=
    r.invariant (sound_construct kind id fields objects garbage) fun _ _ _ h _ hstep =>
      sound_step h hstep
  exact ⟨fits hs, restorable_of_roundTrips hs, roundTrips_of_restorable hs⟩

/-- A vector that grows between two builds. -/
theorem packet_round_trip_resize :
    ∃ p : Packet, p.fields = [.container 1 [⟨[1], rfl⟩, ⟨[2], rfl⟩]] ∧
      (∀ garbage, Fits p garbage) ∧ (RoundTrips p ↔ ∀ f ∈ p.fields, Restorable p.kind f) :=
  have grow : List.Forall₂ SameType [.container 1 [⟨[1], rfl⟩]]
      [.container 1 [⟨[1], rfl⟩, ⟨[2], rfl⟩]] := .cons (.container _ _) .nil
  have r : Run Step (fun _ _ => True)
      (construct .heap 7 [.container 1 [⟨[1], rfl⟩]] (fun _ _ => 0) fun _ => 0)
      [.build fun _ => 0, .assign _ fun _ _ => 0, .build fun _ => 0] _ :=
    .snoc (.snoc (.snoc (.nil _) trivial (.build _ _)) trivial (.assign grow)) trivial (.build _ _)
  ⟨_, rfl, packet_round_trip r⟩

/-- A `StackPacket` of an array of one pointer to a byte restores the pointer. -/
theorem stack_pointers_not_restored :
    ¬ ∀ (kind : PacketKind) (id : BitVec 16) (fields : List Field) (objects : Objects)
        (garbage : Memory) (ops : List Op) (p : Packet),
      Run Step (fun _ _ => True) (construct kind id fields objects garbage) ops p →
        (∀ garbage, Fits p garbage) ∧ RoundTrips p := by
  intro h
  have hr := (h .stack 7 [.pointers 1 [0]] (fun _ _ => 0) (fun _ => 0) [] _ (.nil _)).2
  have hs := sound_construct .stack 7 [.pointers 1 [0]] (fun _ _ => 0) fun _ => 0
  rcases restorable_of_roundTrips hs hr (.pointers 1 [0]) (List.mem_singleton.mpr rfl) rfl
    with h | h <;> cases h

end StLib.Communication.PacketRoundTrip
