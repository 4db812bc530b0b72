import StLib.Diagnostics.Formatter

/-! # Descriptions are cut, and nothing else

In a buffer of any size a description is the start of the text of the record. -/
namespace StLib.Diagnostics.Description

open StLib.Base.Bytes StLib.Base.DecimalText StLib.Base.BoundedText
open StLib.Diagnostics.TransportOrder (Timestamp)
open StLib.Diagnostics.Forwarding StLib.Diagnostics.Formatter
open StLib.Protections.Model (RuleKind RuleState RuleEdge SampleEncoding NumericValue)
open StLib.Protections.FaultText (ProtectionDiagnosticPayload)

variable {floats : FloatFormat} {record : Record} {clock : Clock} {time : Timestamp}

/-! ## No text has a terminator in it -/

theorem ruleKindLabel_noNul (kind : RuleKind) : 0#8 ∉ ruleKindLabel kind := by
  cases kind <;> decide

theorem ruleStateLabel_noNul (state : RuleState) : 0#8 ∉ ruleStateLabel state := by
  cases state <;> decide

theorem ruleEdgeLabel_noNul (edge : RuleEdge) : 0#8 ∉ ruleEdgeLabel edge := by
  cases edge <;> decide

theorem numericText_noNul (encoding : SampleEncoding) (value : NumericValue) :
    0#8 ∉ numericText floats encoding value := by
  cases encoding with
  | bool =>
    rw [numericText]
    split <;> decide
  | signed => exact nul_notMem_signedDecimal _
  | unsigned => exact nul_notMem_decimal _
  | float32 => exact floats.float32_noNul _
  | float64 => exact floats.float64_noNul _

theorem shown_noNul (buffer : List Byte) : 0#8 ∉ shown buffer := by
  intro hmem
  exact absurd (List.mem_takeWhile_imp hmem) (by decide)

theorem clockText_noNul (uptimeUs : Nat) : 0#8 ∉ clockText uptimeUs := by
  simp [clockText, nul_notMem_padded]

theorem timestampSuffix_noNul (time : Timestamp) (clock : Clock) : 0#8 ∉ timestampSuffix time clock := by
  have htimestamp : 0#8 ∉ ascii " | Timestamp: " := by decide
  have huptime : 0#8 ∉ ascii " | Uptime: " := by decide
  rw [timestampSuffix]
  split
  · simp [htimestamp, nul_notMem_padded]
  · dsimp only
    split
    · simp [huptime, nul_notMem_decimal, clockText_noNul]
    · simp [huptime, clockText_noNul]

theorem runtimeText_noNul (runtime : RuntimeDiagnosticPayload) : 0#8 ∉ runtimeText runtime := by
  have hline : 0#8 ∉ ascii " | Line: " := by decide
  have hfunction : 0#8 ∉ ascii " Function: '" := by decide
  have hfile : 0#8 ∉ ascii "' File: " := by decide
  simp [runtimeText, hline, hfunction, hfile, runtime.message.noNul, runtime.functionName.noNul,
    runtime.fileName.noNul, nul_notMem_decimal]

theorem protectionText_noNul {origin : List Byte} (h : 0#8 ∉ origin) (protection : ProtectionDiagnosticPayload) :
    0#8 ∉ protectionText floats origin protection := by
  have hprotection : 0#8 ∉ ascii "Protection " := by decide
  have hopen : 0#8 ∉ ascii " [" := by decide
  have hclose : 0#8 ∉ ascii "] " := by decide
  have hrule : 0#8 ∉ ascii " | Rule: " := by decide
  have hvalue : 0#8 ∉ ascii " | Value: " := by decide
  have hthreshold : 0#8 ∉ ascii " | ThresholdA: " := by decide
  simp [protectionText, hprotection, hopen, hclose, hrule, hvalue, hthreshold, h, ruleStateLabel_noNul,
    ruleEdgeLabel_noNul, ruleKindLabel_noNul, shown_noNul]

/-- No text that is appended has a terminator in it. -/
theorem fullText_noNul (floats : FloatFormat) (record : Record) (clock : Clock) :
    0#8 ∉ fullText floats record clock := by
  have hthreshold : 0#8 ∉ ascii " | ThresholdB: " := by decide
  have hwindow : 0#8 ∉ ascii " | Window: " := by decide
  have hactive : 0#8 ∉ ascii "s | Active: " := by decide
  have hend : 0#8 ∉ ascii "s" := by decide
  have htruncated : 0#8 ∉ ascii " | Message truncated" := by decide
  rw [fullText, List.mem_flatten]
  rintro ⟨text, hmem, hnul⟩
  revert hnul
  rw [pieces] at hmem
  split at hmem
  · simp only [List.mem_append, List.mem_singleton] at hmem
    rcases hmem with ((rfl | hmem) | hmem) | rfl
    · exact protectionText_noNul record.origin.noNul _
    · split at hmem
      · rw [List.mem_singleton.mp hmem]
        simp [hthreshold, shown_noNul]
      · exact absurd hmem List.not_mem_nil
    · split at hmem
      · rw [List.mem_singleton.mp hmem]
        simp [hwindow, hactive, hend, floats.seconds_noNul]
      · exact absurd hmem List.not_mem_nil
    · exact timestampSuffix_noNul _ _
  · simp only [List.mem_append, List.mem_cons, List.not_mem_nil, or_false] at hmem
    rcases hmem with (rfl | rfl) | hmem
    · exact runtimeText_noNul _
    · exact timestampSuffix_noNul _ _
    · split at hmem
      · rw [List.mem_singleton.mp hmem]
        exact htruncated
      · exact absurd hmem List.not_mem_nil
  · exact absurd hmem List.not_mem_nil

/-! ## Values -/

/-- What a value's buffer shows is the start of the value's text. -/
theorem shown_valueBuffer (encoding : SampleEncoding) (value : NumericValue) :
    shown (valueBuffer floats encoding value) = (numericText floats encoding value).take 31 := by
  have hno : 0#8 ∉ numericText floats encoding value := numericText_noNul encoding value
  have hstop : ∀ {text rest : List Byte}, 0#8 ∉ text → shown (text ++ 0#8 :: rest) = text := by
    intro text rest htext
    have hall : ∀ c ∈ text, (c != 0#8) = true := fun c hc => bne_iff_ne.mpr fun he => htext (he ▸ hc)
    rw [shown, List.takeWhile_append_of_pos hall, List.takeWhile_cons_of_neg (by decide), List.append_nil]
  have htake : 0#8 ∉ (numericText floats encoding value).take 31 := fun hmem => hno (List.mem_of_mem_take hmem)
  rw [valueBuffer, formatNumericValue, if_neg (by decide)]
  cases encoding with
  | bool =>
    have hmin : ∀ text : List Byte, text.take (min text.length 31) = text.take 31 := fun text => by
      rw [Nat.min_comm, ← List.take_take, List.take_length]
    change shown ((numericText floats .bool value).take (min _ 31) ++ 0#8 :: _) = _
    rw [hmin, hstop htake]
  | signed => exact hstop htake
  | unsigned => exact hstop htake
  | float32 => exact hstop htake
  | float64 => exact hstop htake

/-! ## Main result -/

theorem format_eq (floats : FloatFormat) (record : Record) (clock : Clock) (b : Builder) :
    format floats record clock b = b.appendAll (pieces floats record clock) := by
  rw [format, pieces]
  split
  · rw [formatProtectionRecord]
    dsimp only
    split <;> split <;> rfl
  · rw [formatRuntimeRecord]
    split <;> rfl
  · rfl

/-- **A description** stays in its buffer and is the start of the text of the record, as much of
it as leaves room for the terminator. -/
theorem describe_cuts (floats : FloatFormat) (record : Record) (clock : Clock) (buffer : List Byte)
    (beyond : Memory) :
    (describe floats record clock buffer).length = buffer.length ∧
      (copyCString (buffer.length - 1) (memory (describe floats record clock buffer) beyond)).chars =
        (fullText floats record clock).take (buffer.length - 1) := by
  rw [describe]
  by_cases hbuffer : buffer = []
  · rw [if_pos hbuffer, hbuffer]
    exact ⟨rfl, rfl⟩
  · have hnew := Builder.appendAll_holds (Builder.new_holds hbuffer) (pieces floats record clock)
    rw [if_neg hbuffer, format_eq]
    exact ⟨hnew.length, hnew.string (fullText_noNul floats record clock) beyond⟩

/-! ## The time of a description -/

/-- A number at the end of a text is read off its digits. -/
theorem padded_inj {width n n' : Nat} (h : padded width n = padded width n') : n = n' := by
  have hvalue := congrArg value h
  rwa [value_padded, value_padded] at hvalue

/-- Hours to microseconds determine the uptime within a day. -/
theorem clockText_inj {u u' : Nat} (hdays : u / 1000000 / 86400 = u' / 1000000 / 86400)
    (h : clockText u = clockText u') : u = u' := by
  have hcolon : isDigit 58#8 = false := by decide
  have hpoint : isDigit 46#8 = false := by decide
  obtain ⟨hhours, -, h⟩ := padded_split hcolon hcolon h
  obtain ⟨hminutes, -, h⟩ := padded_split hcolon hcolon h
  obtain ⟨hseconds, -, h⟩ := padded_split hpoint hpoint h
  have hmicros := padded_inj h
  omega

/-- The days before the clock are told from its hours. -/
theorem clockText_ne_days (u u' days : Nat) : clockText u ≠ decimal days ++ 100#8 :: 32#8 :: clockText u' := by
  intro h
  obtain ⟨-, hchar, -⟩ := digits_split (fun _ => isDigit_of_mem_padded) (fun _ => isDigit_of_mem_decimal)
    (by decide) (by decide) h
  exact absurd hchar (by decide)

theorem uptime_inj {u u' : BitVec 64} {time time' : Timestamp}
    (h : timestampSuffix time { hasRtc := false, uptimeUs := u } =
      timestampSuffix time' { hasRtc := false, uptimeUs := u' }) : u = u' := by
  refine BitVec.eq_of_toNat_eq ?_
  simp only [timestampSuffix, Bool.false_eq_true, if_false] at h
  split at h
  · split at h
    · obtain ⟨hdays, -, h⟩ := digits_split (fun _ => isDigit_of_mem_decimal) (fun _ => isDigit_of_mem_decimal)
        (by decide) (by decide) (List.append_cancel_left h)
      have hvalue := congrArg value hdays
      rw [value_decimal, value_decimal] at hvalue
      exact clockText_inj hvalue (List.cons.inj h).2
    · exact absurd (List.append_cancel_left h).symm (clockText_ne_days _ _ _)
  · split at h
    · exact absurd (List.append_cancel_left h) (clockText_ne_days _ _ _)
    · exact clockText_inj (by omega) (List.append_cancel_left h)

theorem date_inj {time time' : Timestamp} {u u' : BitVec 64}
    (h : timestampSuffix time { hasRtc := true, uptimeUs := u } =
      timestampSuffix time' { hasRtc := true, uptimeUs := u' }) : time = time' := by
  have hdash : isDigit 45#8 = false := by decide
  have hspace : isDigit 32#8 = false := by decide
  have hcolon : isDigit 58#8 = false := by decide
  have hpoint : isDigit 46#8 = false := by decide
  simp only [timestampSuffix, if_true] at h
  obtain ⟨hyear, -, h⟩ := padded_split hdash hdash (List.append_cancel_left h)
  obtain ⟨hmonth, -, h⟩ := padded_split hdash hdash h
  obtain ⟨hday, -, h⟩ := padded_split hspace hspace h
  obtain ⟨hhour, -, h⟩ := padded_split hcolon hcolon h
  obtain ⟨hminute, -, h⟩ := padded_split hcolon hcolon h
  obtain ⟨hsecond, -, h⟩ := padded_split hpoint hpoint h
  have hcounter := padded_inj h
  ext1 <;> exact BitVec.eq_of_toNat_eq ‹_›

/-- A date and an uptime are announced differently. -/
theorem timestampSuffix_kind (time : Timestamp) (clock : Clock) :
    (timestampSuffix time clock)[3]? = some (if clock.hasRtc then 84#8 else 85#8) := by
  rw [timestampSuffix]
  dsimp only
  split
  · rfl
  · split <;> rfl

/-- **The time** of a record is read off its description: two suffixes are the same exactly
when they are of one date, or of one uptime. -/
theorem timestampSuffix_inj (time time' : Timestamp) (clock clock' : Clock) :
    timestampSuffix time clock = timestampSuffix time' clock' ↔
      clock.hasRtc = clock'.hasRtc ∧
        if clock.hasRtc then time = time' else clock.uptimeUs = clock'.uptimeUs := by
  have hkinds : timestampSuffix time clock = timestampSuffix time' clock' → clock.hasRtc = clock'.hasRtc := by
    intro h
    have hhead := congrArg (fun text => text[3]?) h
    simp only [timestampSuffix_kind] at hhead
    revert hhead
    cases clock.hasRtc <;> cases clock'.hasRtc <;> decide
  obtain ⟨hasRtc, u⟩ := clock
  obtain ⟨hasRtc', u'⟩ := clock'
  constructor
  · intro h
    have hsame : hasRtc = hasRtc' := hkinds h
    subst hsame
    refine ⟨rfl, ?_⟩
    cases hasRtc with
    | true => exact date_inj h
    | false => exact uptime_inj h
  · rintro ⟨hsame, hshown⟩
    change hasRtc = hasRtc' at hsame
    subst hsame
    cases hasRtc with
    | true =>
      have htime : time = time' := hshown
      rw [htime]
      rfl
    | false =>
      have huptime : u = u' := hshown
      rw [huptime]
      rfl

end StLib.Diagnostics.Description
