import StLib.Base.FixedLayout
import StLib.Base.Runs

/-! # Packets

`StackPacket` and `HeapPacket` copy the variables they are made of into a buffer and
back. A `HeapPacket` finds the `PacketValue` of an array of pointers that copies what
the pointers point to. A `StackPacket` names the type of the array itself, for which
there is only the `PacketValue` of any type, and copies the pointers. -/
namespace StLib.Communication.Packets

open StLib.Base.Bytes StLib.Base.FixedLayout StLib.Base.Runs

abbrev Pointer := BitVec 32

/-- The variables that pointers point to. -/
abbrev Objects := Pointer → Memory

/-- A variable of a packet: a scalar or an array, an array of pointers to variables of
`size` bytes, a container, a string less its terminator. -/
inductive Field
  | value (size : Nat) (bytes : Block size)
  | pointers (size : Nat) (targets : List Pointer)
  | container (size : Nat) (elements : List (Block size))
  | text (chars : List Byte)
deriving DecidableEq

inductive PacketKind
  | stack
  | heap
deriving DecidableEq

def strlen (chars : List Byte) : Nat := (chars.takeWhile (· != 0#8)).length

/-! ## Packet values -/

/-- `get_size`. -/
def valueSize (kind : PacketKind) : Field → Nat
  | .value size _ => size
  | .pointers size targets =>
    match kind with
    | .stack => targets.length * word32Layout.size
    | .heap => targets.length * size
  | .container size elements => elements.length * size
  | .text chars => strlen chars + 1

def pointees (objects : Objects) (size : Nat) (targets : List Pointer) : List Byte :=
  targets.flatMap fun i => (objects i).bytes size

/-- The bytes that `copy_to` writes. -/
def copyTo (kind : PacketKind) (objects : Objects) : Field → List Byte
  | .value _ bytes => bytes.val
  | .pointers size targets =>
    match kind with
    | .stack => word32Layout.encodeAll targets
    | .heap => pointees objects size targets
  | .container size elements => (blockLayout size).encodeAll elements
  | .text chars => (chars ++ [0#8]).take (strlen chars + 1)

def store (objects : Objects) (i : Pointer) (bytes : List Byte) : Objects :=
  Function.update objects i (memory bytes ((objects i).advance bytes.length))

def storeAll (size : Nat) : Memory → List Pointer → Objects → Objects
  | _, [], objects => objects
  | data, i :: targets, objects =>
    storeAll size (data.advance size) targets (store objects i (data.bytes size))

/-- `parse`. -/
def parseValue (kind : PacketKind) (data : Memory) (objects : Objects) : Field → Field × Objects
  | .value size _ => (.value size (blockAt data size), objects)
  | .pointers size targets =>
    match kind with
    | .stack => (.pointers size (word32Layout.readAll targets.length data), objects)
    | .heap => (.pointers size targets, storeAll size data targets objects)
  | .container size elements =>
    (.container size ((blockLayout size).readAll elements.length data), objects)
  | .text chars =>
    let size := strlen chars + 1
    -- the last byte of a string that is full goes where its terminator is
    (.text ((data.bytes size ++ chars.drop size).take chars.length), objects)

/-! ## The buffer -/

def Field.isContainer : Field → Bool
  | .container .. | .text _ => true
  | _ => false

/-- `sizeof`; that of a container is never used. -/
def Field.sizeof : Field → Nat
  | .value size _ => size
  | .pointers _ targets => targets.length * word32Layout.size
  | .container .. | .text _ => 0

def totalSizeof (fields : List Field) : Nat := (fields.map Field.sizeof).sum

def hasContainer (fields : List Field) : Bool := fields.any Field.isContainer

def bufferLength (fields : List Field) : Nat :=
  if hasContainer fields then 0 else totalSizeof fields

structure Packet where
  kind : PacketKind
  id : BitVec 16
  fields : List Field
  objects : Objects
  size : Nat
  buffer : Option (List Byte)

/-- The buffer is an array in the packet, or the id where there is nothing else. -/
def ownsBuffer (kind : PacketKind) (fields : List Field) : Bool :=
  kind == .stack && (fields.isEmpty || bufferLength fields != 0)

def construct (kind : PacketKind) (id : BitVec 16) (fields : List Field) (objects : Objects)
    (garbage : Memory) : Packet :=
  if ownsBuffer kind fields then
    { kind, id, fields, objects, size := bufferLength fields + 2,
      buffer := some (garbage.bytes (bufferLength fields + 2)) }
  else { kind, id, fields, objects, size := 0, buffer := none }

namespace Packet

def getSize (p : Packet) : Nat :=
  if ownsBuffer p.kind p.fields then p.size else (p.fields.map (valueSize p.kind)).sum + 2

/-- The buffer that `build` writes to. One that is new holds anything. -/
def allocate (p : Packet) (garbage : Memory) : List Byte :=
  match p.buffer with
  | none => garbage.bytes p.getSize
  | some buffer =>
    if ownsBuffer p.kind p.fields then buffer
    else if buffer.length < p.getSize ∨ p.getSize < buffer.length / 2 then garbage.bytes p.getSize
    else buffer

/-- `memcpy` into a buffer. What does not fit makes it longer. -/
def write (buffer : List Byte) (data : Nat) (bytes : List Byte) : List Byte :=
  buffer.take data ++ bytes ++ buffer.drop (data + bytes.length)

/-- Write the fields from `data` on; where the writing ends is returned. -/
def writeFields (kind : PacketKind) (objects : Objects) :
    Nat → List Byte → List Field → List Byte × Nat
  | data, buffer, [] => (buffer, data)
  | data, buffer, f :: fields =>
    writeFields kind objects (data + valueSize kind f) (write buffer data (copyTo kind objects f))
      fields

/-- The buffer once it is written, and where the writing ended. -/
def written (p : Packet) (garbage : Memory) : List Byte × Nat :=
  writeFields p.kind p.objects 2 (write (p.allocate garbage) 0 (bytesOfWord p.id)) p.fields

def build (p : Packet) (garbage : Memory) : Packet :=
  { p with size := p.getSize, buffer := some (p.written garbage).1 }

def parseFields (kind : PacketKind) : Memory → Objects → List Field → List Field × Objects
  | _, objects, [] => ([], objects)
  | data, objects, f :: fields =>
    let (f, objects) := parseValue kind data objects f
    let (fields, objects) := parseFields kind (data.advance (valueSize kind f)) objects fields
    (f :: fields, objects)

def parse (p : Packet) (data : Memory) : Packet :=
  let (fields, objects) := parseFields p.kind (data.advance 2) p.objects p.fields
  { p with fields, objects }

end Packet

/-! ## Runs -/

/-- Two values of one type. A container may have any length. -/
inductive SameType : Field → Field → Prop
  | value {size : Nat} (bytes bytes' : Block size) : SameType (.value size bytes) (.value size bytes')
  | pointers {size : Nat} {targets targets' : List Pointer} (h : targets'.length = targets.length) :
      SameType (.pointers size targets) (.pointers size targets')
  | container {size : Nat} (elements elements' : List (Block size)) :
      SameType (.container size elements) (.container size elements')
  | text (chars chars' : List Byte) : SameType (.text chars) (.text chars')

inductive Op
  | build (garbage : Memory)
  | assign (fields : List Field) (objects : Objects)

inductive Step : Packet → Op → Packet → Prop
  | build (p : Packet) (garbage : Memory) : Step p (.build garbage) (p.build garbage)
  | assign {p : Packet} {fields : List Field} {objects : Objects}
      (h : List.Forall₂ SameType p.fields fields) :
      Step p (.assign fields objects) { p with fields, objects }

/-! ## What one value does -/

theorem length_pointees (objects : Objects) (size : Nat) (targets : List Pointer) :
    (pointees objects size targets).length = targets.length * size := by
  induction targets with
  | nil => simp [pointees]
  | cons i targets ih =>
    have hcons : pointees objects size (i :: targets) =
        (objects i).bytes size ++ pointees objects size targets := rfl
    rw [hcons, List.length_append, ih, Memory.bytes, List.length_map, List.length_range,
      List.length_cons, Nat.succ_mul, Nat.add_comm]

theorem strlen_le (chars : List Byte) : strlen chars ≤ chars.length :=
  (List.takeWhile_prefix _).length_le

/-- `copy_to` writes `get_size` bytes. -/
theorem length_copyTo (kind : PacketKind) (objects : Objects) (f : Field) :
    (copyTo kind objects f).length = valueSize kind f := by
  cases f with
  | value size bytes => exact bytes.property
  | pointers size targets =>
    cases kind with
    | stack => exact word32Layout.length_encodeAll targets
    | heap => exact length_pointees objects size targets
  | container size elements => exact (blockLayout size).length_encodeAll elements
  | text chars =>
    have := strlen_le chars
    simp only [copyTo, valueSize, List.length_take, List.length_append, List.length_singleton]
    omega

end StLib.Communication.Packets
