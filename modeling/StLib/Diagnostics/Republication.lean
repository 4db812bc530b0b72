import StLib.Diagnostics.Description

/-! # What is left of a record on other boards

A record is described, sent, parsed and published again by the receiver, whose own sink may
send it on. After any number of hops its message is the start of its first text. -/
namespace StLib.Diagnostics.Republication

open StLib.Base.Bytes StLib.Base.DecimalText StLib.Base.BoundedText
open StLib.Diagnostics.TransportOrder (Timestamp Severity formattedMessageCapacity idFor)
open StLib.Diagnostics.Forwarding StLib.Diagnostics.Formatter StLib.Diagnostics.Description

/-- A record and the clock it was taken by. -/
structure Entry where
  record : Record
  clock : Clock

/-- The text of an entry. -/
def Entry.text (floats : FloatFormat) (e : Entry) : List Byte := fullText floats e.record e.clock

/-- `description` of `OrderProtocolDiagnosticSink::publish`. -/
def description (floats : FloatFormat) (clock : Clock) (record : Record) : Memory :=
  memory (describe floats record clock (List.replicate (formattedMessageCapacity + 1) 0#8)) fun _ => 0#8

/-- A hop to another board: what lies behind the bytes there, and its timestamp. -/
structure Hop where
  beyond : Memory
  now : Timestamp
  clock : Clock

/-- The record is sent and published again. -/
def forward (floats : FloatFormat) (hop : Hop) (e : Entry) : Option Entry :=
  (received blank (transmitted (description floats e.clock) blank e.record) hop.beyond hop.now).map
    fun record => { record, clock := hop.clock }

def forwardAll (floats : FloatFormat) : List Hop → Entry → Option Entry
  | [], e => some e
  | hop :: hops, e => (forward floats hop e).bind (forwardAll floats hops)

/-! ## One hop -/

def categoryFor : Severity → Category
  | .fault => .runtimeFault
  | .warning => .runtimeWarning
  | .info => .runtimeInfo

/-- A record that repeats the text of another one of the same severity. -/
structure Repeats (level : Severity) (origin text : List Byte) (record : Record) : Prop where
  severity : record.severity = level
  category : record.category = categoryFor level
  payload : ∃ runtime, record.payload = .runtime runtime ∧
    runtime.message.chars = text.take runtimeMessageCapacity ∧
    runtime.truncated = decide (runtimeMessageCapacity < text.length) ∧
    runtime.functionName.chars = origin ∧ runtime.fileName.chars = [] ∧ runtime.line = 0#32

/-- Copying a string into an array of another size cuts it, and notes that it does. -/
theorem copy_stored {capacity : Nat} (size : Nat) (s : CString capacity) :
    (copyCString size (stored s)).chars = s.chars.take size ∧
      (stored s (strnlen (stored s) size) != 0#8) = decide (size < s.chars.length) := by
  have hlength : strnlen (stored s) size = min s.chars.length size := strnlen_min _ size s.noNul
  obtain ⟨hchars, hflag⟩ := Protections.FaultText.copied [] (fun _ => 0#8) size s.noNul
  rw [hlength]
  refine ⟨?_, hflag⟩
  change (stored s).bytes (strnlen (stored s) size) = _
  rw [hlength]
  exact hchars

theorem runtimeRecord_repeats {messageCapacity : Nat} (severity : Severity) (origin : String)
    {message : CString messageCapacity} {text : List Byte} (hmessage : message.chars = text.take 320)
    (function : CString TransportOrder.originCapacity) (now : Timestamp) :
    Repeats severity function.chars text (runtimeRecord severity (categoryFor severity) origin (stored message)
      false 0 (stored function) (literal "") now) := by
  obtain ⟨hchars, hflag⟩ := copy_stored runtimeMessageCapacity message
  obtain ⟨hfunction, -⟩ := copy_stored functionCapacity function
  refine ⟨rfl, rfl, _, rfl, ?_, ?_, ?_, rfl, rfl⟩
  · change (copyCString runtimeMessageCapacity (stored message)).chars = _
    rw [hchars, hmessage, List.take_take]
    rfl
  · change (false || (stored message (strnlen (stored message) runtimeMessageCapacity) != 0#8)) = _
    rw [Bool.false_or, hflag, hmessage, List.length_take]
    refine decide_eq_decide.mpr ?_
    unfold runtimeMessageCapacity
    omega
  · change (copyCString functionCapacity (stored function)).chars = _
    have hfits : function.chars.length ≤ 48 := function.fits
    rw [hfunction, List.take_of_length_le]
    unfold functionCapacity
    omega

/-- An order that brings the start of a text is published as a record that repeats it. -/
theorem process_repeats {severity : Severity} {order : TransportOrder.DiagnosticTransportOrder}
    {text : List Byte} (hid : order.id = idFor severity) (hmessage : order.message.chars = text.take 320)
    (now : Timestamp) :
    ∃ record : Record, process order now = some record ∧ Repeats severity order.origin.chars text record := by
  rw [process, hid]
  cases severity with
  | fault => exact ⟨_, rfl, runtimeRecord_repeats .fault "runtime_fault" hmessage order.origin now⟩
  | warning => exact ⟨_, rfl, runtimeRecord_repeats .warning "runtime_warning" hmessage order.origin now⟩
  | info => exact ⟨_, rfl, runtimeRecord_repeats .info "runtime_info" hmessage order.origin now⟩

/-- **One hop**: the receiver publishes a record of the severity that repeats the text. -/
theorem forward_repeats (floats : FloatFormat) (hop : Hop) (e : Entry) :
    ∃ record, forward floats hop e = some { record, clock := hop.clock } ∧
      Repeats e.record.severity e.record.origin.chars (e.text floats) record := by
  obtain ⟨hid, -, horigin, hmessage, -, -⟩ := TransportRoundTrip.parse_build
    (blank.setRecord e.record.header (description floats e.clock e.record)) blank hop.beyond
  have hcuts := (describe_cuts floats e.record e.clock (List.replicate (formattedMessageCapacity + 1) 0#8)
    fun _ => 0#8).2
  rw [List.length_replicate, Nat.add_sub_cancel] at hcuts
  have hsame : copyCString TransportOrder.originCapacity (stored e.record.origin) = e.record.origin :=
    copyCString_memory e.record.origin [] fun _ => 0#8
  rw [forward, received, transmitted]
  generalize blank.parse _ = order at hid horigin hmessage ⊢
  have hfor : order.id = idFor e.record.severity := hid
  obtain ⟨record, hprocess, hrepeats⟩ := process_repeats hfor
    ((congrArg CString.chars hmessage).trans hcuts) hop.now
  rw [hprocess]
  refine ⟨record, rfl, ?_⟩
  rwa [show order.origin = e.record.origin from horigin.trans hsame] at hrepeats

/-! ## Many hops -/

/-- The text of a runtime record starts with its message and goes on. -/
theorem text_runtime (floats : FloatFormat) {e : Entry} {runtime : RuntimeDiagnosticPayload}
    (h : e.record.payload = .runtime runtime) :
    ∃ rest, e.text floats = runtime.message.chars ++ rest ∧ rest ≠ [] := by
  have hpieces : pieces floats e.record e.clock =
      [runtimeText runtime, timestampSuffix e.record.timestamp e.clock] ++
        (if runtime.truncated then [ascii " | Message truncated"] else []) := by
    rw [pieces, h]
    cases e.record.category <;> rfl
  refine ⟨ascii " | Line: " ++ (decimal runtime.line.toNat ++ (ascii " Function: '" ++
    (runtime.functionName.chars ++ (ascii "' File: " ++ (runtime.fileName.chars ++
      (timestampSuffix e.record.timestamp e.clock ++
        (if runtime.truncated then [ascii " | Message truncated"] else []).flatten)))))), ?_, ?_⟩
  · rw [Entry.text, fullText, hpieces]
    simp only [runtimeText, List.flatten_append, List.flatten_cons, List.flatten_nil, List.append_assoc,
      List.append_nil]
  · intro hnil
    have hline : ascii " | Line: " = [] := (List.append_eq_nil_iff.mp hnil).1
    exact absurd hline (by decide)

/-- What is left of a text on a board that it came to. -/
structure Remains (level : Severity) (text : List Byte) (record : Record) : Prop where
  severity : record.severity = level
  category : record.category = categoryFor level
  payload : ∃ runtime, record.payload = .runtime runtime ∧
    text.take runtimeMessageCapacity <+: runtime.message.chars ∧
    (runtimeMessageCapacity ≤ text.length → runtime.message.chars = text.take runtimeMessageCapacity) ∧
    (runtimeMessageCapacity < text.length → runtime.truncated = true)

theorem Repeats.remains {level : Severity} {origin text : List Byte} {record : Record}
    (h : Repeats level origin text record) : Remains level text record := by
  obtain ⟨runtime, hpayload, hmessage, htruncated, -⟩ := h.payload
  refine ⟨h.severity, h.category, runtime, hpayload, ?_, fun _ => hmessage, ?_⟩
  · rw [hmessage]
  · intro hlong
    rw [htruncated, decide_eq_true hlong]

/-- A hop takes nothing away from what is left. -/
theorem Remains.hop {floats : FloatFormat} {level : Severity} {text origin : List Byte} {e : Entry}
    {record : Record} (h : Remains level text e.record) (hr : Repeats e.record.severity origin (e.text floats) record) :
    Remains level text record := by
  obtain ⟨runtime, hpayload, hstart, hall, -⟩ := h.payload
  obtain ⟨rest, htext, hrest⟩ := text_runtime floats hpayload
  obtain ⟨runtime', hpayload', hmessage, htruncated, -⟩ := hr.payload
  rw [htext] at hmessage htruncated
  have hlevel := h.severity
  have hfull : runtimeMessageCapacity ≤ text.length →
      runtime.message.chars.length = runtimeMessageCapacity := fun hlong => by
    rw [hall hlong, List.length_take, Nat.min_eq_left hlong]
  refine ⟨hr.severity.trans hlevel, hlevel ▸ hr.category, runtime', hpayload', ?_, ?_, ?_⟩
  · rw [hmessage, List.prefix_take_iff]
    exact ⟨hstart.trans (List.prefix_append _ _), List.length_take_le _ _⟩
  · intro hlong
    exact hmessage.trans ((List.take_left' (hfull hlong)).trans (hall hlong))
  · intro hlong
    have hlength := hfull (Nat.le_of_lt hlong)
    have hpos := List.length_pos_iff.mpr hrest
    rw [htruncated, decide_eq_true_iff, List.length_append]
    omega

theorem forwardAll_keeps {floats : FloatFormat} {level : Severity} {text : List Byte} (hops : List Hop) {e : Entry}
    (h : Remains level text e.record) :
    ∃ last, forwardAll floats hops e = some last ∧ Remains level text last.record := by
  induction hops generalizing e with
  | nil => exact ⟨e, rfl, h⟩
  | cons hop hops ih =>
    obtain ⟨record, hforward, hrepeats⟩ := forward_repeats floats hop e
    rw [forwardAll, hforward, Option.bind_some]
    exact ih (h.hop hrepeats)

end StLib.Diagnostics.Republication
