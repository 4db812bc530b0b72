import StLib.Base.Bytes

/-! # The diagnostic transport order

`DiagnosticTransportOrder` of `DiagnosticSinks.cpp`: the order a diagnostic record is
sent in. The members from the counter to the year are laid out as the compiler does,
with a byte of padding before the year, since `parse` copies into them in one block. -/
namespace StLib.Diagnostics.TransportOrder

open StLib.Base.Bytes

/-! ## Configuration -/

def originCapacity : Nat := 48

def formattedMessageCapacity : Nat := 320

def diagnosticFaultOrderId : BitVec 16 := 1555#16

def diagnosticWarningOrderId : BitVec 16 := 2555#16

def diagnosticOkOrderId : BitVec 16 := 3000#16

def diagnosticCharType : Byte := 3#8

def diagnosticErrorHandlerKind : Byte := 5#8

def diagnosticWarningKind : Byte := 7#8

def transportBufferCapacity : Nat :=
  2 + 1 + 1 + 2 + 1 + 1 + 1 + 1 + 1 + 2 + originCapacity + 1 + formattedMessageCapacity + 1

/-! ## Records -/

inductive Severity
  | info
  | warning
  | fault
deriving DecidableEq

/-- The fields of `Timestamp` that are sent. -/
@[ext]
structure Timestamp where
  counter : BitVec 16 := 0#16
  second : Byte := 0#8
  minute : Byte := 0#8
  hour : Byte := 0#8
  day : Byte := 0#8
  month : Byte := 0#8
  year : BitVec 16 := 0#16
deriving DecidableEq

/-- What `set_record` reads of a `DiagnosticRecord`; the origin is an array. -/
structure DiagnosticRecord where
  severity : Severity
  timestamp : Timestamp
  origin : Memory

def idFor : Severity → BitVec 16
  | .fault => diagnosticFaultOrderId
  | .warning => diagnosticWarningOrderId
  | .info => diagnosticOkOrderId

def kindFor (severity : Severity) : Byte :=
  if severity = .fault then diagnosticErrorHandlerKind else diagnosticWarningKind

/-! ## The order -/

/-- The members; `padding` is the byte between the month and the year. -/
structure DiagnosticTransportOrder where
  id : BitVec 16
  kind : Byte := diagnosticWarningKind
  origin : CString originCapacity := { chars := [], fits := Nat.zero_le _, noNul := nul_notMem_nil }
  message : CString formattedMessageCapacity :=
    { chars := [], fits := Nat.zero_le _, noNul := nul_notMem_nil }
  timestamp : Timestamp := {}
  padding : Byte := 0#8
  size : Nat := 0
deriving DecidableEq

/-- How many bytes the fields of the timestamp have together. -/
def timestampSize : Nat := 9

/-- The members from the counter to the year, byte by byte. -/
def DiagnosticTransportOrder.tail (o : DiagnosticTransportOrder) : List Byte :=
  bytesOfWord o.timestamp.counter ++
    [o.timestamp.second, o.timestamp.minute, o.timestamp.hour, o.timestamp.day, o.timestamp.month,
      o.padding] ++ bytesOfWord o.timestamp.year

/-- The members with the bytes `b` for those from the counter to the year. -/
def DiagnosticTransportOrder.setTail (o : DiagnosticTransportOrder) (b : Memory) :
    DiagnosticTransportOrder :=
  { o with
    timestamp := {
      counter := wordOfBytes (b 0) (b 1)
      second := b 2
      minute := b 3
      hour := b 4
      day := b 5
      month := b 6
      year := wordOfBytes (b 8) (b 9) }
    padding := b 7 }

/-- `memcpy(&counter, src, timestampSize)`. -/
def DiagnosticTransportOrder.copyTail (o : DiagnosticTransportOrder) (src : Memory) :
    DiagnosticTransportOrder :=
  o.setTail (memory (src.bytes timestampSize ++ o.tail.drop timestampSize) fun _ => 0#8)

/-- `encoded_size`. -/
def DiagnosticTransportOrder.encodedSize (o : DiagnosticTransportOrder) : Nat :=
  2 + 1 + 1 + o.origin.chars.length + 1 + o.message.chars.length + 1 + timestampSize

def DiagnosticTransportOrder.setRecord (o : DiagnosticTransportOrder) (record : DiagnosticRecord)
    (description : Memory) : DiagnosticTransportOrder :=
  let o := { o with
    id := idFor record.severity
    kind := kindFor record.severity
    origin := copyCString originCapacity record.origin
    message := copyCString formattedMessageCapacity description
    timestamp := record.timestamp }
  { o with size := o.encodedSize }

def DiagnosticTransportOrder.getSize (o : DiagnosticTransportOrder) : Nat := o.size

def DiagnosticTransportOrder.resetForReceive (o : DiagnosticTransportOrder) :
    DiagnosticTransportOrder :=
  { o with size := 0 }

/-- `write_string` behind the bytes written so far: what fits before the end of the
buffer, and the terminator. -/
def writeString {capacity : Nat} (written : List Byte) (text : CString capacity) : List Byte :=
  let length := strnlen (memory (text.chars ++ [0#8]) fun _ => 0#8)
    (transportBufferCapacity - written.length - 1)
  written ++ text.chars.take length ++ [0#8]

/-- `build`: the bytes written into the buffer, and the order with their number. -/
def DiagnosticTransportOrder.build (o : DiagnosticTransportOrder) :
    List Byte × DiagnosticTransportOrder :=
  let written := bytesOfWord o.id ++ [diagnosticCharType, o.kind]
  let written := writeString written o.origin
  let written := writeString written o.message
  let written := written ++ bytesOfWord o.timestamp.counter ++
    [o.timestamp.second, o.timestamp.minute, o.timestamp.hour, o.timestamp.day,
      o.timestamp.month] ++ bytesOfWord o.timestamp.year
  (written, { o with size := written.length })

/-- Where the origin ends, terminator included. -/
def originEnd (data : Memory) : Nat := 4 + strnlen (data.advance 4) originCapacity + 1

/-- Where the message ends, terminator included. -/
def messageEnd (data : Memory) : Nat :=
  originEnd data + strnlen (data.advance (originEnd data)) formattedMessageCapacity + 1

def DiagnosticTransportOrder.parse (o : DiagnosticTransportOrder) (data : Memory) :
    DiagnosticTransportOrder :=
  let o := { o with
    id := wordOfBytes (data 0) (data 1)
    kind := data 3
    origin := copyCString originCapacity (data.advance 4)
    message := copyCString formattedMessageCapacity (data.advance (originEnd data)) }
  let o := o.copyTail (data.advance (messageEnd data))
  { o with size := messageEnd data + timestampSize }

/-! ## What is built -/

variable (o : DiagnosticTransportOrder)

/-- The bytes of an order, part by part. -/
def encoded : List Byte :=
  bytesOfWord o.id ++ [diagnosticCharType, o.kind] ++
    (o.origin.chars ++ 0#8 :: (o.message.chars ++ 0#8 :: (bytesOfWord o.timestamp.counter ++
      [o.timestamp.second, o.timestamp.minute, o.timestamp.hour, o.timestamp.day,
        o.timestamp.month] ++ bytesOfWord o.timestamp.year)))

theorem writeString_eq {capacity : Nat} {written : List Byte} (text : CString capacity)
    (h : written.length + text.chars.length < transportBufferCapacity) :
    writeString written text = written ++ text.chars ++ [0#8] := by
  unfold writeString
  dsimp only
  rw [strnlen_memory _ text.noNul (by omega), List.take_length]

/-- Everything is written: the buffer has room for the longest strings. -/
theorem build_eq : o.build.1 = encoded o := by
  have horigin := o.origin.fits
  have hmessage := o.message.fits
  have hcap : transportBufferCapacity = 383 := rfl
  unfold DiagnosticTransportOrder.build
  dsimp only
  rw [writeString_eq o.origin, writeString_eq o.message]
  · simp [encoded]
  · simp only [List.length_append, bytesOfWord, List.length_cons, List.length_nil]
    unfold originCapacity at horigin
    unfold formattedMessageCapacity at hmessage
    omega
  · simp only [List.length_append, bytesOfWord, List.length_cons, List.length_nil]
    unfold originCapacity at horigin
    omega

theorem length_encoded : (encoded o).length = o.encodedSize := by
  simp only [encoded, bytesOfWord, List.length_append, List.length_cons, List.length_nil,
    DiagnosticTransportOrder.encodedSize, timestampSize]
  omega

theorem encodedSize_le : o.encodedSize ≤ transportBufferCapacity := by
  have horigin := o.origin.fits
  have hmessage := o.message.fits
  unfold DiagnosticTransportOrder.encodedSize transportBufferCapacity timestampSize
  omega

end StLib.Diagnostics.TransportOrder
