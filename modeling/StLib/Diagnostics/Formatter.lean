import StLib.Base.BoundedText
import StLib.Protections.FaultText

/-! # Describing a record

`DiagnosticFormatter.cpp`: the text of a record in a buffer of any size. What `printf` makes of a
floating-point number is a parameter. -/
namespace StLib.Diagnostics.Formatter

open StLib.Base.Bytes StLib.Base.DecimalText StLib.Base.BoundedText
open StLib.Diagnostics.TransportOrder (Timestamp)
open StLib.Diagnostics.Forwarding (Content Category RuntimeDiagnosticPayload DiagnosticPayload)
open StLib.Protections.Model (RuleKind RuleState RuleEdge SampleEncoding NumericValue)
open StLib.Protections.FaultText (ProtectionDiagnosticPayload)

/-- `%.6f` of a sample, and `%.3f` of a time, which is kept in microseconds. -/
structure FloatFormat where
  float32 : BitVec 32 → List Byte
  float64 : BitVec 64 → List Byte
  seconds : BitVec 64 → List Byte
  float32_noNul : ∀ bits, 0#8 ∉ float32 bits
  float64_noNul : ∀ bits, 0#8 ∉ float64 bits
  seconds_noNul : ∀ us, 0#8 ∉ seconds us

/-- The fields of `Timestamp` that are not sent. -/
structure Clock where
  hasRtc : Bool
  uptimeUs : BitVec 64
deriving DecidableEq

abbrev Record := Content ProtectionDiagnosticPayload

/-! ## Labels -/

def ruleKindLabel : RuleKind → List Byte
  | .below => ascii "below"
  | .above => ascii "above"
  | .range => ascii "range"
  | .equals => ascii "equals"
  | .notEquals => ascii "not_equals"
  | .timeAccumulation => ascii "time_accumulation"

def ruleStateLabel : RuleState → List Byte
  | .fault => ascii "fault"
  | .warning => ascii "warning"
  | .normal => ascii "normal"

def ruleEdgeLabel : RuleEdge → List Byte
  | .faultRaised => ascii "fault_raised"
  | .warningRaised => ascii "warning_raised"
  | .recovered => ascii "recovered"
  | .none => ascii "none"

/-! ## Numbers -/

/-- The bits of the member of the union that is set, with zeros behind them. -/
def bits : NumericValue → BitVec 64
  | .bool value => (BitVec.ofBool value).setWidth 64
  | .signed value => value
  | .unsigned value => value
  | .float32 bits => bits.setWidth 64
  | .float64 bits => bits

/-- What a value is printed as. -/
def numericText (floats : FloatFormat) (encoding : SampleEncoding) (value : NumericValue) : List Byte :=
  match encoding with
  | .bool => if (bits value).setWidth 8 ≠ 0#8 then ascii "true" else ascii "false"
  | .signed => signedDecimal (bits value).toInt
  | .unsigned => decimal (bits value).toNat
  | .float32 => floats.float32 ((bits value).setWidth 32)
  | .float64 => floats.float64 (bits value)

/-- `format_numeric_value`: the buffer, and whether there was room for the value. -/
def formatNumericValue (floats : FloatFormat) (encoding : SampleEncoding) (value : NumericValue)
    (buffer : List Byte) : List Byte × Bool :=
  if buffer = [] then (buffer, false)
  else
    let text := numericText floats encoding value
    match encoding with
    | .bool =>
      let length := min text.length (buffer.length - 1)
      (text.take length ++ 0#8 :: buffer.drop (length + 1), length == text.length)
    | _ => (vsnprintf buffer 0 text, decide (text.length < buffer.length))

/-- The characters of an array up to its terminator, for `%s`. -/
def shown (buffer : List Byte) : List Byte := buffer.takeWhile (· != 0#8)

/-- The buffer of a value, which is zeroed. -/
def valueBuffer (floats : FloatFormat) (encoding : SampleEncoding) (value : NumericValue) : List Byte :=
  (formatNumericValue floats encoding value (List.replicate 32 0#8)).1

/-! ## Records -/

/-- Hours to microseconds of an uptime. -/
def clockText (uptimeUs : Nat) : List Byte :=
  let totalSeconds := uptimeUs / 1000000
  padded 2 (totalSeconds / 3600 % 24) ++ 58#8 :: (padded 2 (totalSeconds / 60 % 60) ++
    58#8 :: (padded 2 (totalSeconds % 60) ++ 46#8 :: padded 6 (uptimeUs % 1000000)))

/-- `append_timestamp_suffix`, the text; the timer module is enabled. -/
def timestampSuffix (time : Timestamp) (clock : Clock) : List Byte :=
  if clock.hasRtc then
    ascii " | Timestamp: " ++ (padded 4 time.year.toNat ++ 45#8 :: (padded 2 time.month.toNat ++
      45#8 :: (padded 2 time.day.toNat ++ 32#8 :: (padded 2 time.hour.toNat ++
        58#8 :: (padded 2 time.minute.toNat ++ 58#8 :: (padded 2 time.second.toNat ++
          46#8 :: padded 5 time.counter.toNat))))))
  else
    let days := clock.uptimeUs.toNat / 1000000 / 86400
    if 0 < days then
      ascii " | Uptime: " ++ (decimal days ++ 100#8 :: 32#8 :: clockText clock.uptimeUs.toNat)
    else ascii " | Uptime: " ++ clockText clock.uptimeUs.toNat

def appendTimestampSuffix (time : Timestamp) (clock : Clock) (b : Builder) : Builder :=
  b.append (timestampSuffix time clock)

/-- The first text of a runtime record. -/
def runtimeText (runtime : RuntimeDiagnosticPayload) : List Byte :=
  runtime.message.chars ++ ascii " | Line: " ++ decimal runtime.line.toNat ++ ascii " Function: '" ++
    runtime.functionName.chars ++ ascii "' File: " ++ runtime.fileName.chars

def formatRuntimeRecord (time : Timestamp) (clock : Clock) (runtime : RuntimeDiagnosticPayload)
    (b : Builder) : Builder :=
  let b := appendTimestampSuffix time clock (b.append (runtimeText runtime))
  if runtime.truncated then b.append (ascii " | Message truncated") else b

/-- The first text of a protection event, with what the buffers of its values show. -/
def protectionText (floats : FloatFormat) (origin : List Byte) (protection : ProtectionDiagnosticPayload) :
    List Byte :=
  let snapshot := protection.snapshot
  let value := valueBuffer floats snapshot.sampleEncoding snapshot.observedValue
  let thresholdA := valueBuffer floats snapshot.sampleEncoding snapshot.thresholdA
  ascii "Protection " ++ ruleStateLabel protection.state ++ ascii " [" ++ ruleEdgeLabel protection.edge ++
    ascii "] " ++ origin ++ ascii " | Rule: " ++ ruleKindLabel snapshot.kind ++ ascii " | Value: " ++
    shown value ++ ascii " | ThresholdA: " ++ shown thresholdA

def formatProtectionRecord (floats : FloatFormat) (time : Timestamp) (clock : Clock) (origin : List Byte)
    (protection : ProtectionDiagnosticPayload) (b : Builder) : Builder :=
  let snapshot := protection.snapshot
  let b := b.append (protectionText floats origin protection)
  let b :=
    if snapshot.hasThresholdB then
      b.append (ascii " | ThresholdB: " ++
        shown (valueBuffer floats snapshot.sampleEncoding snapshot.thresholdB))
    else b
  let b :=
    if snapshot.kind = .timeAccumulation then
      b.append (ascii " | Window: " ++ floats.seconds snapshot.timeWindowUs ++ ascii "s | Active: " ++
        floats.seconds snapshot.activeTimeUs ++ ascii "s")
    else b
  appendTimestampSuffix time clock b

/-- A record has the payload of its category. -/
def format (floats : FloatFormat) (record : Record) (clock : Clock) (b : Builder) : Builder :=
  match record.category, record.payload with
  | .protectionEvent, .protection protection =>
    formatProtectionRecord floats record.timestamp clock record.origin.chars protection b
  | _, .runtime runtime => formatRuntimeRecord record.timestamp clock runtime b
  | _, _ => b

/-- `DiagnosticFormatter::describe`. -/
def describe (floats : FloatFormat) (record : Record) (clock : Clock) (buffer : List Byte) : List Byte :=
  if buffer = [] then buffer else (format floats record clock (Builder.new buffer)).buffer

/-! ## The whole text -/

/-- The texts that are appended for a record. -/
def pieces (floats : FloatFormat) (record : Record) (clock : Clock) : List (List Byte) :=
  match record.category, record.payload with
  | .protectionEvent, .protection protection =>
    let snapshot := protection.snapshot
    [protectionText floats record.origin.chars protection] ++
      (if snapshot.hasThresholdB then
        [ascii " | ThresholdB: " ++ shown (valueBuffer floats snapshot.sampleEncoding snapshot.thresholdB)]
      else []) ++
      (if snapshot.kind = .timeAccumulation then
        [ascii " | Window: " ++ floats.seconds snapshot.timeWindowUs ++ ascii "s | Active: " ++
          floats.seconds snapshot.activeTimeUs ++ ascii "s"]
      else []) ++ [timestampSuffix record.timestamp clock]
  | _, .runtime runtime =>
    [runtimeText runtime, timestampSuffix record.timestamp clock] ++
      (if runtime.truncated then [ascii " | Message truncated"] else [])
  | _, _ => []

/-- **The text of a record**, of any length. -/
def fullText (floats : FloatFormat) (record : Record) (clock : Clock) : List Byte :=
  (pieces floats record clock).flatten

end StLib.Diagnostics.Formatter
