import StLib.Communication.PacketRoundTrip

/-! # Strings in a packet

How much a string copies, and where the next value begins, is found from the string of the
receiver, before it is parsed and after it. -/
namespace StLib.Communication.StringFields

open StLib.Base.Bytes StLib.Base.FixedLayout StLib.Base.Runs StLib.Communication.Packets
open StLib.Communication.PacketRoundTrip

/-! ## What is claimed -/

/-- A variable of the sender and the receiver's, as in `Alike`, but strings hold anything. -/
inductive Matches (image : Pointer → Pointer) : Field → Field → Prop
  | value {size : Nat} (bytes bytes' : Block size) :
      Matches image (.value size bytes) (.value size bytes')
  | pointers (size : Nat) (targets : List Pointer) :
      Matches image (.pointers size (targets.map image)) (.pointers size targets)
  | container {size : Nat} {elements elements' : List (Block size)}
      (h : elements'.length = elements.length) :
      Matches image (.container size elements) (.container size elements')
  | text (chars chars' : List Byte) : Matches image (.text chars) (.text chars')

/-- A string has no NUL in it. -/
def NoNul : Field → Prop
  | .text chars => 0#8 ∉ chars
  | _ => True

/-- A string is its characters, or those that `c_str` shows. -/
inductive Reading
  | value
  | cString

def content : Reading → List Byte → List Byte
  | .value, chars => chars
  | .cString, chars => chars.takeWhile (· != 0#8)

def shown (r : Reading) (objects : Objects) : Field → List Byte
  | .text chars => content r chars
  | f => view objects f

/-- A full string, whose terminator is overwritten, is terminated by what is copied. -/
def Ends (data : Memory) : Field → Prop
  | .text chars => strlen chars = chars.length → 0#8 ∈ data.bytes (chars.length + 1)
  | _ => True

/-- No string is read past its end while a packet is parsed. -/
def Terminated (kind : PacketKind) : Memory → Objects → List Field → Prop
  | _, _, [] => True
  | data, objects, f :: fields =>
    let parsed := parseValue kind data objects f
    Ends data f ∧ Terminated kind (data.advance (valueSize kind parsed.1)) parsed.2 fields

/-- What `parse` moves `data` by, the size of every value once it is parsed. -/
def consumed (p : Packet) : Nat := (p.fields.map (valueSize p.kind)).sum + 2

/-- The bytes that were built. -/
def built (p : Packet) (garbage : Memory) : List Byte := (p.written garbage).1.take p.getSize

/-- The claim for a sender and a receiver. -/
structure Restored (r : Reading) (p receiver : Packet) (garbage beyond : Memory) : Prop where
  terminated : Terminated receiver.kind ((memory (built p garbage) beyond).advance 2)
    receiver.objects receiver.fields
  values :
    let parsed := receiver.parse (memory (built p garbage) beyond)
    parsed.fields.map (shown r parsed.objects) = p.fields.map (shown r p.objects)
  count : consumed (receiver.parse (memory (built p garbage) beyond)) = p.getSize

/-- The string of the receiver takes what the sender's holds: it has its length and holds the
same behind its own terminator, or, for `c_str`, it is as long, or shows the same there. -/
def Takes : Reading → List Byte → List Byte → Prop
  | .value, chars, chars' =>
    chars'.length = chars.length ∧
      chars'.drop (strlen chars' + 1) = chars.drop (strlen chars' + 1)
  | .cString, chars, chars' =>
    chars.length ≤ strlen chars' ∨ strlen chars' < chars'.length ∧
      content .cString (chars'.drop (strlen chars' + 1)) = chars.drop (strlen chars' + 1)

def TakesField (r : Reading) : Field → Field → Prop
  | .text chars, .text chars' => Takes r chars chars'
  | _, _ => True

/-- The receiver of pointers has at their addresses what the sender has. -/
def Coincides (kind : PacketKind) (sent before : Objects) : Field → Prop
  | .pointers size targets =>
    kind = .stack → pointees before size targets = pointees sent size targets
  | _ => True

structure Meets (r : Reading) (p receiver : Packet) : Prop where
  strings : List.Forall₂ (TakesField r) p.fields receiver.fields
  pointers : ∀ f ∈ p.fields, Coincides p.kind p.objects receiver.objects f

/-! ## One string -/

variable {chars chars' more : List Byte} {beyond : Memory} {r : Reading}

theorem strlen_of_noNul (h : 0#8 ∉ chars) : strlen chars = chars.length := by
  unfold strlen
  rw [List.takeWhile_eq_self_iff.mpr]
  intro c hc
  exact bne_iff_ne.mpr fun he => h (he ▸ hc)

theorem content_of_noNul (h : 0#8 ∉ chars) (r : Reading) : content r chars = chars := by
  cases r with
  | value => rfl
  | cString =>
    refine List.takeWhile_eq_self_iff.mpr fun c hc => ?_
    exact bne_iff_ne.mpr fun he => h (he ▸ hc)

/-- A shorter copy is a part of the sender's string. -/
theorem bytes_of_lt (h : strlen chars' < chars.length) :
    (memory (chars ++ 0#8 :: more) beyond).bytes (strlen chars' + 1) =
      chars.take (strlen chars' + 1) := by
  have hbytes := bytes_memory (chars.take (strlen chars' + 1))
    (chars.drop (strlen chars' + 1) ++ 0#8 :: more) beyond
  rw [← List.append_assoc, List.take_append_drop, List.length_take, Nat.min_eq_left h] at hbytes
  exact hbytes

/-- A copy as long holds the sender's string and its terminator. -/
theorem bytes_of_le (more : List Byte) (beyond : Memory) (h : chars.length ≤ strlen chars') :
    ∃ rest, (memory (chars ++ 0#8 :: more) beyond).bytes (strlen chars' + 1) =
      chars ++ 0#8 :: rest := by
  obtain ⟨n, hn⟩ := Nat.exists_eq_add_of_le h
  refine ⟨(memory more beyond).bytes n, ?_⟩
  have hfirst := bytes_memory (chars ++ [0#8]) more beyond
  have hadvance := advance_memory (chars ++ [0#8]) more beyond
  rw [List.length_append, List.length_singleton, List.append_assoc, List.singleton_append]
    at hfirst hadvance
  rw [hn, Nat.add_right_comm]
  simp only [Memory.bytes] at hfirst ⊢
  rw [List.range_add, List.map_append, hfirst, List.map_map, List.append_assoc]
  congr 1
  rw [← hadvance]
  rfl

/-- What follows the terminator is not shown. -/
theorem content_take (h : 0#8 ∉ chars) (rest : List Byte) {n : Nat} (hn : chars.length ≤ n) :
    content .cString ((chars ++ 0#8 :: rest).take n) = chars := by
  have hall : ∀ c ∈ chars, (c != 0#8) = true := fun c hc => bne_iff_ne.mpr fun he => h (he ▸ hc)
  rw [content, List.take_append, List.take_of_length_le hn, List.takeWhile_append_of_pos hall]
  cases n - chars.length with
  | zero => rw [List.take_zero, List.takeWhile_nil, List.append_nil]
  | succ n => rw [List.take_succ_cons, List.takeWhile_cons_of_neg (by simp), List.append_nil]

/-- The string of the receiver once it is parsed. -/
def parsedText (data : Memory) (chars : List Byte) : List Byte :=
  (data.bytes (strlen chars + 1) ++ chars.drop (strlen chars + 1)).take chars.length

/-- **One string.** It is terminated and shows what was sent exactly when it takes it. -/
theorem takes_iff (h : 0#8 ∉ chars) :
    Ends (memory (chars ++ 0#8 :: more) beyond) (.text chars') ∧
        content r (parsedText (memory (chars ++ 0#8 :: more) beyond) chars') = chars ↔
      Takes r chars chars' := by
  have hle := strlen_le chars'
  rcases Nat.lt_or_ge (strlen chars') chars.length with hlt | hge
  · rw [parsedText, bytes_of_lt hlt]
    rcases Nat.lt_or_ge (strlen chars') chars'.length with hopen | hfull
    · -- the copy ends inside both strings
      have hends : Ends (memory (chars ++ 0#8 :: more) beyond) (.text chars') :=
        fun he => absurd he (Nat.ne_of_lt hopen)
      have hlen : (chars.take (strlen chars' + 1)).length = strlen chars' + 1 := by
        rw [List.length_take, Nat.min_eq_left hlt]
      rw [List.take_of_length_le (by rw [List.length_append, hlen, List.length_drop]; omega)]
      cases r with
      | value =>
        constructor
        · rintro ⟨-, he⟩
          have hdrop := List.append_cancel_left
            (he.trans (List.take_append_drop (strlen chars' + 1) chars).symm)
          have hlengths := congrArg List.length hdrop
          rw [List.length_drop, List.length_drop] at hlengths
          exact ⟨by omega, hdrop⟩
        · rintro ⟨-, hdrop⟩
          exact ⟨hends, by rw [content, hdrop, List.take_append_drop]⟩
      | cString =>
        have hall : ∀ c ∈ chars.take (strlen chars' + 1), (c != 0#8) = true := fun c hc =>
          bne_iff_ne.mpr fun he => h (List.mem_of_mem_take (he ▸ hc))
        rw [content, List.takeWhile_append_of_pos hall]
        constructor
        · rintro ⟨-, he⟩
          exact .inr ⟨hopen, List.append_cancel_left
            (he.trans (List.take_append_drop (strlen chars' + 1) chars).symm)⟩
        · rintro (hlong | ⟨-, hdrop⟩)
          · exact absurd hlong (Nat.not_le_of_lt hlt)
          · refine ⟨hends, ?_⟩
            rw [← content, hdrop, List.take_append_drop]
    · -- its terminator is overwritten by a character
      have heq : strlen chars' = chars'.length := Nat.le_antisymm hle hfull
      constructor
      · rintro ⟨hends, -⟩
        have hmem := hends heq
        rw [← heq, bytes_of_lt hlt] at hmem
        exact absurd (List.mem_of_mem_take hmem) h
      · cases r with
        | value => rintro ⟨hlength, -⟩; omega
        | cString =>
          rintro (hlong | ⟨hopen, -⟩)
          · omega
          · omega
  · obtain ⟨rest, hbytes⟩ := bytes_of_le more beyond hge
    have hends : Ends (memory (chars ++ 0#8 :: more) beyond) (.text chars') := fun heq => by
      rw [← heq, hbytes]
      exact List.mem_append_right _ List.mem_cons_self
    rw [parsedText, hbytes, List.append_assoc]
    cases r with
    | value =>
      constructor
      · rintro ⟨-, he⟩
        have hlengths := congrArg List.length he
        have hcount := congrArg List.length hbytes
        simp only [content, List.length_take, List.length_append, List.length_cons,
          List.length_drop, Memory.bytes, List.length_map, List.length_range]
          at hlengths hcount
        have hlength : chars'.length = chars.length := by omega
        refine ⟨hlength, ?_⟩
        rw [List.drop_eq_nil_of_le (by omega), List.drop_eq_nil_of_le (by omega)]
      · rintro ⟨hlength, -⟩
        refine ⟨hends, ?_⟩
        rw [content, hlength, List.take_left]
    | cString =>
      exact iff_of_true ⟨hends, content_take h _ (hge.trans hle)⟩ (.inl hge)

/-- A string that shows what was sent ends where it ended. -/
theorem strlen_of_content (h : 0#8 ∉ chars) (hc : content r chars' = chars) :
    strlen chars' = chars.length := by
  cases r with
  | value => rw [← hc] at h ⊢; exact strlen_of_noNul h
  | cString => exact congrArg List.length hc

/-! ## One variable -/

variable {kind : PacketKind} {image : Pointer → Pointer} {sent before between after : Objects}
variable {f f' : Field} {fields fields' : List Field}

/-- What is parsed for a variable whose string takes what was sent. -/
structure Parsed (r : Reading) (kind : PacketKind) (image : Pointer → Pointer)
    (sent before : Objects) (f f' : Field) (parsed : Field × Objects) : Prop where
  size : valueSize kind parsed.1 = valueSize kind f
  carried : Carried kind image sent before parsed.2 [f']
  shows : ∀ {after fields'}, Carried kind image sent before after fields' → f' ∈ fields' →
    (shown r after parsed.1 = shown r sent f ↔ Coincides kind sent before f)

theorem copyTo_text (h : 0#8 ∉ chars) (kind : PacketKind) (sent : Objects) :
    copyTo kind sent (.text chars) = chars ++ [0#8] := by
  rw [copyTo, strlen_of_noNul h, List.take_of_length_le]
  exact Nat.le_of_eq List.length_append

theorem parsed_text (h : 0#8 ∉ chars) {data : Memory}
    (hc : content r (parsedText data chars') = chars) :
    Parsed r kind image sent before (.text chars) (.text chars')
      (parseValue kind data before (.text chars')) where
  size := by
    show strlen (parsedText data chars') + 1 = strlen chars + 1
    rw [strlen_of_content h hc, strlen_of_noNul h]
  carried := .refl (by simp)
  shows _ _ := iff_of_true (hc.trans (content_of_noNul h r).symm) trivial

/-- A variable that is no string. -/
theorem parsed_alike (hm : Alike image f f') (ht : ∀ chars, f ≠ .text chars) (more : List Byte)
    (beyond : Memory) :
    Parsed r kind image sent before f f'
      (parseValue kind (memory (copyTo kind sent f ++ more) beyond) before f') := by
  obtain ⟨after, hparse, hcarried⟩ := parseValue_built kind sent hm more beyond before
  rw [hparse]
  refine ⟨received_size hm, hcarried, fun {after fields'} hc hf => ?_⟩
  cases hm with
  | value => exact iff_of_true rfl trivial
  | container => exact iff_of_true rfl trivial
  | text => exact absurd rfl (ht _)
  | pointers size targets =>
    cases kind with
    | heap =>
      have hr : Restorable .heap (.pointers size (targets.map image)) := nofun
      exact iff_of_true (view_received (.pointers size targets) hr hc hf) nofun
    | stack =>
      show pointees after size (targets.map image) = pointees sent size (targets.map image) ↔ _
      rw [hc.still rfl]
      exact ⟨fun he _ => he, fun he => he rfl⟩

theorem parsed_value (kind : PacketKind) (sent before : Objects) (hm : Matches image f f')
    (hn : NoNul f) (hk : TakesField r f f') (more : List Byte) (beyond : Memory) :
    Ends (memory (copyTo kind sent f ++ more) beyond) f' ∧
      Parsed r kind image sent before f f'
        (parseValue kind (memory (copyTo kind sent f ++ more) beyond) before f') := by
  cases hm with
  | value bytes bytes' => exact ⟨trivial, parsed_alike (.value bytes bytes') nofun more beyond⟩
  | pointers size targets => exact ⟨trivial, parsed_alike (.pointers size targets) nofun more beyond⟩
  | container h => exact ⟨trivial, parsed_alike (.container h) nofun more beyond⟩
  | text chars chars' =>
    rw [copyTo_text hn, List.append_assoc, List.singleton_append]
    obtain ⟨hends, hc⟩ := (takes_iff hn).mpr hk
    exact ⟨hends, parsed_text hn hc⟩

/-- A string that is not read past its end and shows what was sent takes it. -/
theorem takesField_of_shown (hm : Matches image f f') (hn : NoNul f)
    (hends : Ends (memory (copyTo kind sent f ++ more) beyond) f')
    (hs : shown r after
      (parseValue kind (memory (copyTo kind sent f ++ more) beyond) before f').1 =
        shown r sent f) :
    TakesField r f f' := by
  cases hm with
  | value => trivial
  | pointers => trivial
  | container => trivial
  | text chars chars' =>
    rw [copyTo_text hn, List.append_assoc, List.singleton_append] at hends hs
    exact (takes_iff hn).mp ⟨hends, Eq.trans hs (content_of_noNul hn r)⟩

/-! ## A packet -/

theorem memory_encodeFields_cons (kind : PacketKind) (sent : Objects) (f : Field)
    (fields : List Field) (more : List Byte) (beyond : Memory) :
    memory (encodeFields kind sent (f :: fields) ++ more) beyond =
      memory (copyTo kind sent f ++ (encodeFields kind sent fields ++ more)) beyond :=
  congrArg (memory · beyond) (List.append_assoc ..)

/-- Behind a variable lie the others. -/
theorem advance_copyTo (kind : PacketKind) (sent : Objects) (f : Field) (more : List Byte)
    (beyond : Memory) :
    (memory (copyTo kind sent f ++ more) beyond).advance (valueSize kind f) =
      memory more beyond := by
  rw [← length_copyTo kind sent f]
  exact advance_memory ..

theorem Coincides.of_still (h : kind = .stack → between = before) (f : Field) :
    Coincides kind sent between f ↔ Coincides kind sent before f := by
  cases f with
  | value => exact Iff.rfl
  | container => exact Iff.rfl
  | text => exact Iff.rfl
  | pointers size targets =>
    constructor
    · intro hc hk
      rw [← h hk]
      exact hc hk
    · intro hc hk
      rw [h hk]
      exact hc hk

theorem parseFields_cons {data rest : Memory}
    (h : data.advance (valueSize kind (parseValue kind data before f).1) = rest) :
    Packet.parseFields kind data before (f :: fields) =
      ((parseValue kind data before f).1 ::
        (Packet.parseFields kind rest (parseValue kind data before f).2 fields).1,
        (Packet.parseFields kind rest (parseValue kind data before f).2 fields).2) :=
  h ▸ rfl

/-- **The variables of a packet** whose strings take what was sent. -/
theorem parseFields_of_takes (hm : List.Forall₂ (Matches image) fields fields')
    (hn : ∀ f ∈ fields, NoNul f) (hk : List.Forall₂ (TakesField r) fields fields')
    (kind : PacketKind) (sent : Objects) (more : List Byte) (beyond : Memory)
    (before : Objects) :
    let data := memory (encodeFields kind sent fields ++ more) beyond
    let parsed := Packet.parseFields kind data before fields'
    Terminated kind data before fields' ∧
      parsed.1.map (valueSize kind) = fields.map (valueSize kind) ∧
      Carried kind image sent before parsed.2 fields' ∧
      (parsed.1.map (shown r parsed.2) = fields.map (shown r sent) ↔
        ∀ f ∈ fields, Coincides kind sent before f) := by
  induction hm generalizing before with
  | nil =>
    exact ⟨trivial, rfl, ⟨fun _ _ => .inl rfl, fun _ _ _ hf => absurd hf List.not_mem_nil,
      fun _ => rfl⟩, iff_of_true rfl nofun⟩
  | @cons f f' fields fields' hf _ ih =>
    obtain ⟨hkf, hk⟩ := List.forall₂_cons.mp hk
    obtain ⟨hnf, hn⟩ := List.forall_mem_cons.mp hn
    obtain ⟨hends, hp⟩ := parsed_value kind sent before hf hnf hkf
      (encodeFields kind sent fields ++ more) beyond
    have hadvance := advance_copyTo kind sent f (encodeFields kind sent fields ++ more) beyond
    intro data parsed
    obtain ⟨hterminated, hsizes, hcarried, hshown⟩ := ih hn hk (parseValue kind data before f').2
    have hdata : data = _ := memory_encodeFields_cons kind sent f fields more beyond
    rw [← hdata] at hends hp hadvance
    have hrest : data.advance (valueSize kind (parseValue kind data before f').1) =
        memory (encodeFields kind sent fields ++ more) beyond := by
      rw [hp.size, hadvance]
    have hparsed : parsed = _ := parseFields_cons hrest
    rw [hparsed]
    have hall := hp.carried.cons hcarried
    refine ⟨⟨hends, ?_⟩, ?_, hall, ?_⟩
    · rw [hrest]
      exact hterminated
    · rw [List.map_cons, List.map_cons, hp.size, hsizes]
    · rw [List.map_cons, List.map_cons, List.cons_eq_cons, hp.shows hall List.mem_cons_self, hshown,
        List.forall_mem_cons]
      refine and_congr_right' (forall₂_congr fun g _ => ?_)
      exact Coincides.of_still hp.carried.still g

/-- What shows what was sent took it. -/
theorem takes_of_shown (hm : List.Forall₂ (Matches image) fields fields')
    (hn : ∀ f ∈ fields, NoNul f) (more : List Byte) (beyond : Memory) (before : Objects) :
    let data := memory (encodeFields kind sent fields ++ more) beyond
    Terminated kind data before fields' →
      (Packet.parseFields kind data before fields').1.map (shown r after) =
        fields.map (shown r sent) →
      List.Forall₂ (TakesField r) fields fields' := by
  induction hm generalizing before with
  | nil => exact fun _ _ => .nil
  | @cons f f' fields fields' hf _ ih =>
    obtain ⟨hnf, hn⟩ := List.forall_mem_cons.mp hn
    have hadvance := advance_copyTo kind sent f (encodeFields kind sent fields ++ more) beyond
    intro data hterminated hshown
    have hdata : data = _ := memory_encodeFields_cons kind sent f fields more beyond
    obtain ⟨hends, hterminated⟩ := hterminated
    have hkf : TakesField r f f' := by
      rw [hdata] at hends hshown
      rw [parseFields_cons rfl, List.map_cons, List.map_cons, List.cons_eq_cons] at hshown
      exact takesField_of_shown hf hnf hends hshown.1
    obtain ⟨-, hp⟩ := parsed_value kind sent before hf hnf hkf
      (encodeFields kind sent fields ++ more) beyond
    rw [← hdata] at hp hadvance
    have hrest : data.advance (valueSize kind (parseValue kind data before f').1) =
        memory (encodeFields kind sent fields ++ more) beyond := by
      rw [hp.size, hadvance]
    rw [hrest] at hterminated
    rw [parseFields_cons hrest, List.map_cons, List.map_cons, List.cons_eq_cons] at hshown
    exact .cons hkf (ih hn _ hterminated hshown.2)

/-! ## Every packet -/

variable {p receiver : Packet}

theorem built_eq (hs : Sound p) (garbage : Memory) : built p garbage = frame p := by
  have hf := fits hs garbage
  rw [built, hf.bytes, ← hf.count, List.take_left]

theorem advance_built (hs : Sound p) (garbage beyond : Memory) :
    (memory (built p garbage) beyond).advance 2 =
      memory (encodeFields p.kind p.objects p.fields ++ []) beyond := by
  rw [built_eq hs, List.append_nil]
  exact advance_memory (bytesOfWord p.id) (encodeFields p.kind p.objects p.fields) beyond

/-- What `parse` makes of what was built. -/
theorem parse_eq (hs : Sound p) (hk : receiver.kind = p.kind) (garbage beyond : Memory) :
    receiver.parse (memory (built p garbage) beyond) =
      let parsed := Packet.parseFields p.kind
        (memory (encodeFields p.kind p.objects p.fields ++ []) beyond) receiver.objects
        receiver.fields
      { receiver with fields := parsed.1, objects := parsed.2 } := by
  show ({ receiver with
    fields := (Packet.parseFields receiver.kind _ receiver.objects receiver.fields).1,
    objects := (Packet.parseFields receiver.kind _ receiver.objects receiver.fields).2 } : Packet) = _
  rw [hk, advance_built hs]

theorem restored_iff (hs : Sound p) (hk : receiver.kind = p.kind)
    (hm : List.Forall₂ (Matches image) p.fields receiver.fields) (hn : ∀ f ∈ p.fields, NoNul f)
    (r : Reading) (garbage beyond : Memory) :
    Restored r p receiver garbage beyond ↔ Meets r p receiver := by
  have hparse := parse_eq hs hk garbage beyond
  constructor
  · rintro ⟨hterminated, hvalues, -⟩
    rw [hk, advance_built hs] at hterminated
    rw [hparse] at hvalues
    have hstrings := takes_of_shown hm hn [] beyond receiver.objects hterminated hvalues
    obtain ⟨-, -, -, hshown⟩ := parseFields_of_takes hm hn hstrings p.kind p.objects
      [] beyond receiver.objects
    exact ⟨hstrings, hshown.mp hvalues⟩
  · rintro ⟨hstrings, hpointers⟩
    obtain ⟨hterminated, hsizes, -, hshown⟩ := parseFields_of_takes hm hn hstrings
      p.kind p.objects [] beyond receiver.objects
    constructor
    · rw [hk, advance_built hs]
      exact hterminated
    · rw [hparse]
      exact hshown.mpr hpointers
    · rw [hparse, getSize_eq hs]
      show (List.map (valueSize receiver.kind) _).sum + 2 = _
      rw [hk, hsizes]

variable {id : BitVec 16} {objects : Objects} {garbage : Memory} {ops : List Op}

/-- **Strings.** A receiver restores a packet, and takes it for as long as it is, exactly when
each of its strings takes the sender's, and its pointers, in a `StackPacket`, point to what the
sender's do. -/
theorem strings_restored_iff
    (h : Run Step (fun _ _ => True) (construct kind id fields objects garbage) ops p)
    (hk : receiver.kind = p.kind) (hm : List.Forall₂ (Matches image) p.fields receiver.fields)
    (hn : ∀ f ∈ p.fields, NoNul f) (r : Reading) (garbage beyond : Memory) :
    Restored r p receiver garbage beyond ↔ Meets r p receiver := by
  have hs : Sound p :=
    h.invariant (sound_construct kind id fields objects _) fun _ _ _ hs _ hstep =>
      sound_step hs hstep
  exact restored_iff hs hk hm hn r garbage beyond

/-- A packet of one string. -/
def textPacket (chars : List Byte) : Packet :=
  construct .heap 7 [.text chars] (fun _ _ => 0) fun _ => 0

theorem strings_restored_iff_longer :
    Restored .cString (textPacket [104, 105]) (textPacket [104, 101, 121]) (fun _ => 0)
      (fun _ => 0) ↔ Meets .cString (textPacket [104, 105]) (textPacket [104, 101, 121]) :=
  have hm : List.Forall₂ (Matches id) (textPacket [104, 105]).fields
      (textPacket [104, 101, 121]).fields := .cons (.text _ _) .nil
  have hn : ∀ f ∈ (textPacket [104, 105]).fields, NoNul f :=
    List.forall_mem_singleton.mpr (by decide : (0#8) ∉ [104#8, 105#8])
  have hk : (textPacket [104, 101, 121]).kind = (textPacket [104, 105]).kind := rfl
  strings_restored_iff (.nil _) hk hm hn _ _ _

/-- A string that was empty is not restored. -/
theorem empty_not_restored :
    ¬ ∃ r : Reading, ∀ (kind : PacketKind) (id : BitVec 16) (fields : List Field)
        (objects : Objects) (receiver : Packet) (image : Pointer → Pointer)
        (garbage garbage' beyond : Memory),
      receiver.kind = kind → List.Forall₂ (Matches image) fields receiver.fields →
        (∀ f ∈ fields, NoNul f) →
        Restored r (construct kind id fields objects garbage) receiver garbage' beyond := by
  rintro ⟨r, hall⟩
  have hm : List.Forall₂ (Matches fun i => i) [.text [104, 105]] (textPacket []).fields :=
    .cons (.text _ _) .nil
  have hn : ∀ f ∈ [Field.text [104, 105]], NoNul f :=
    List.forall_mem_singleton.mpr (by decide : (0#8) ∉ [104#8, 105#8])
  have hs : Sound (textPacket [104, 105]) := sound_construct _ _ _ _ _
  have hk : (textPacket []).kind = (textPacket [104, 105]).kind := rfl
  have hr : Restored r (textPacket [104, 105]) (textPacket []) (fun _ => 0) (fun _ => 0) :=
    hall .heap 7 _ (fun _ _ => 0) (textPacket []) _ (fun _ => 0) (fun _ => 0) (fun _ => 0) rfl hm hn
  have hmeets := (restored_iff hs hk hm hn r _ _).mp hr
  have htakes : Takes r [104, 105] [] := (List.forall₂_cons.mp hmeets.strings).1
  cases r with
  | value => exact absurd htakes.1 (by decide)
  | cString =>
    rcases htakes with hlong | ⟨hopen, -⟩
    · exact absurd hlong (by decide)
    · exact absurd hopen (by decide)

end StLib.Communication.StringFields
