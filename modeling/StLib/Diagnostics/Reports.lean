import StLib.Diagnostics.Formatter
import StLib.Protections.FaultLatch

/-! # Reports

The reporters of `ErrorHandler.cpp` and `InfoWarning.cpp`. A message is formatted into a buffer of
its own and copied into a record: straight away for a warning or an information, by way of the
cause of a requested fault for a panic or a fault. -/
namespace StLib.Diagnostics.Reports

open StLib.Base.Bytes StLib.Base.BoundedText
open StLib.Diagnostics.TransportOrder (Severity Timestamp)
open StLib.Diagnostics.Forwarding (Category runtimeMessageCapacity functionCapacity fileCapacity)
open StLib.Diagnostics.Formatter (Record)
open StLib.Protections.FaultText
open StLib.Protections.FaultController (CWorld Controller Program requestFault isFaulted latchedFaultCause)
open StLib.Protections.FaultRequest

/-! ## Messages -/

/-- What `vsnprintf` makes of a format and its arguments: a text, or a failure, with the characters
that it wrote before. -/
inductive Formatting
  | text (chars : List Byte)
  | failed (written : CString runtimeMessageCapacity)

theorem length_failed (written : CString runtimeMessageCapacity) :
    (written.chars ++ List.replicate (runtimeMessageCapacity + 1 - written.chars.length) 0#8).length =
      runtimeMessageCapacity + 1 := by
  have hfits := written.fits
  rw [List.length_append, List.length_replicate]
  omega

/-- `vsnprintf` at the beginning of an array. -/
def format {size : Nat} (chars : List Byte) (dst : CharArray size) : CharArray size where
  bytes := vsnprintf dst.bytes 0 chars
  length := (length_vsnprintf ..).trans dst.length

/-- `RuntimeFatalMessage`. -/
structure RuntimeFatalMessage where
  buffer : CharArray (runtimeMessageCapacity + 1)
  truncated : Bool

/-- `format_runtime_fatal_message`. -/
def formatRuntimeFatalMessage : Formatting → RuntimeFatalMessage
  | .text chars =>
    { buffer := format chars (.zero (runtimeMessageCapacity + 1))
      truncated := decide (runtimeMessageCapacity + 1 ≤ chars.length) }
  | .failed written =>
    { buffer :=
        { bytes := written.chars ++ List.replicate (runtimeMessageCapacity + 1 - written.chars.length) 0#8
          length := length_failed written }
      truncated := true }

/-! ## Reporters -/

/-- `std::source_location`. -/
structure Location where
  line : BitVec 32
  functionName : Text
  fileName : Text

/-- What a reporter is called with, and what lies in memory behind its buffer and the names. -/
structure Call where
  location : Location
  formatting : Formatting
  beyond : Memory

namespace Call

def message (call : Call) : Memory := memory (formatRuntimeFatalMessage call.formatting).buffer.bytes call.beyond

def truncated (call : Call) : Bool := (formatRuntimeFatalMessage call.formatting).truncated

/-- `static_cast<int>(location.line())`. -/
def line (call : Call) : Int := call.location.line.toInt

def functionName (call : Call) : Memory := memory (call.location.functionName.chars ++ [0#8]) call.beyond

def fileName (call : Call) : Memory := memory (call.location.fileName.chars ++ [0#8]) call.beyond

end Call

variable {υ : Type}

def PanicReporter.trigger (prog : Program FaultCause υ) (call : Call) (w : CWorld FaultCause υ) :
    Option (CWorld FaultCause υ) :=
  (FaultCause.panic (some call.message) call.truncated call.line (some call.functionName)
    (some call.fileName)).map fun cause => requestFault prog cause w

def FaultReporter.trigger (prog : Program FaultCause υ) (call : Call) (w : CWorld FaultCause υ) :
    Option (CWorld FaultCause υ) :=
  (FaultCause.runtimeFault (some call.message) call.truncated call.line (some call.functionName)
    (some call.fileName)).map fun cause => requestFault prog cause w

/-- `publish_runtime_diagnostic`: the record that the hub publishes. Its buffer is filled as that of
a panic is. -/
def publishRuntimeDiagnostic (severity : Severity) (call : Call) (now : Timestamp) : Option Record :=
  match severity with
  | .warning =>
    some (Forwarding.runtimeWarning call.message call.truncated call.line call.functionName call.fileName now)
  | .info =>
    some (Forwarding.runtimeInfo call.message call.truncated call.line call.functionName call.fileName now)
  | .fault => none

def RuntimeDiagnosticReporter.triggerWarning : Call → Timestamp → Option Record := publishRuntimeDiagnostic .warning

def RuntimeDiagnosticReporter.triggerInfo : Call → Timestamp → Option Record := publishRuntimeDiagnostic .info

/-! ## A board that reports -/

inductive Kind
  | panic
  | fault
  | warning
  | info
deriving DecidableEq

def Kind.isFatal : Kind → Bool
  | .panic => true
  | .fault => true
  | .warning => false
  | .info => false

structure Report where
  kind : Kind
  call : Call
  now : Timestamp

/-- The controller, and the records of warnings and informations. -/
structure Board (υ : Type) where
  world : CWorld FaultCause υ
  records : List Record := []

def Report.run (prog : Program FaultCause υ) (report : Report) (b : Board υ) : Option (Board υ) :=
  match report.kind with
  | .panic => (PanicReporter.trigger prog report.call b.world).map fun w => { b with world := w }
  | .fault => (FaultReporter.trigger prog report.call b.world).map fun w => { b with world := w }
  | .warning =>
    (RuntimeDiagnosticReporter.triggerWarning report.call report.now).map fun record =>
      { b with records := b.records ++ [record] }
  | .info =>
    (RuntimeDiagnosticReporter.triggerInfo report.call report.now).map fun record =>
      { b with records := b.records ++ [record] }

def runAll (prog : Program FaultCause υ) : List Report → Board υ → Option (Board υ)
  | [], b => some b
  | report :: reports, b => (report.run prog b).bind (runAll prog reports)

/-! ## What a record tells -/

/-- The string that a formatted message is. -/
def Formatting.shown : Formatting → List Byte
  | .text chars => (chars.takeWhile (· != 0#8)).take runtimeMessageCapacity
  | .failed written => written.chars

/-- Not all of the message is there. -/
def Formatting.cut : Formatting → Bool
  | .text chars => decide (runtimeMessageCapacity < chars.length)
  | .failed _ => true

namespace Kind

def severity : Kind → Severity
  | .panic => .fault
  | .fault => .fault
  | .warning => .warning
  | .info => .info

def category : Kind → Category
  | .panic => .runtimePanic
  | .fault => .runtimeFault
  | .warning => .runtimeWarning
  | .info => .runtimeInfo

def origin : Kind → String
  | .panic => "runtime_panic"
  | .fault => "runtime_fault"
  | .warning => "runtime_warning"
  | .info => "runtime_info"

theorem origin_noNul (kind : Kind) : 0#8 ∉ ascii kind.origin := by
  cases kind <;> decide

theorem length_origin (kind : Kind) : (ascii kind.origin).length ≤ TransportOrder.originCapacity := by
  cases kind <;> decide

end Kind

/-- The record of a call at a time. -/
structure Tells (kind : Kind) (call : Call) (now : Timestamp) (record : Record) : Prop where
  severity : record.severity = kind.severity
  category : record.category = kind.category
  timestamp : record.timestamp = now
  origin : record.origin.chars = ascii kind.origin
  payload : ∃ runtime, record.payload = .runtime runtime ∧
    runtime.message.chars = call.formatting.shown ∧
    runtime.truncated = call.formatting.cut ∧
    runtime.line = BitVec.ofInt 32 (max call.location.line.toInt 0) ∧
    runtime.functionName.chars = call.location.functionName.chars.take functionCapacity ∧
    runtime.fileName.chars = call.location.fileName.chars.take fileCapacity

theorem nul_notMem_takeWhile (chars : List Byte) : 0#8 ∉ chars.takeWhile (· != 0#8) := by
  intro hmem
  exact absurd (List.mem_takeWhile_imp hmem) (by decide)

/-- A list ends a string where it has a terminator, and else in what follows. -/
theorem exists_string (chars rest : List Byte) :
    ∃ rest', chars ++ 0#8 :: rest = chars.takeWhile (· != 0#8) ++ 0#8 :: rest' := by
  induction chars with
  | nil => exact ⟨rest, rfl⟩
  | cons c chars ih =>
    obtain ⟨rest', hrest⟩ := ih
    by_cases hc : c = 0#8
    · subst hc
      exact ⟨chars ++ 0#8 :: rest, rfl⟩
    · have hkept : (c != 0#8) = true := bne_iff_ne.mpr hc
      refine ⟨rest', ?_⟩
      rw [List.takeWhile_cons, if_pos hkept]
      exact congrArg (c :: ·) hrest

theorem format_bytes {n : Nat} (chars : List Byte) (dst : CharArray (n + 1)) :
    ∃ rest, (format chars dst).bytes = chars.take n ++ 0#8 :: rest := by
  have hlength := dst.length
  have hroom : 0 < dst.bytes.length := by omega
  refine ⟨dst.bytes.drop (0 + (chars.take (dst.bytes.length - 0 - 1)).length + 1), ?_⟩
  change vsnprintf dst.bytes 0 chars = _
  rw [vsnprintf, if_pos hroom]
  dsimp only
  rw [List.take_zero, List.nil_append, show dst.bytes.length - 0 - 1 = n by omega]

/-- **The buffer** holds the string that the message is, and the flag says whether that is all. -/
theorem message_points (call : Call) :
    Points (some call.message) call.formatting.shown ∧ call.truncated = call.formatting.cut ∧
      call.formatting.shown.length ≤ runtimeMessageCapacity := by
  obtain ⟨location, formatting, beyond⟩ := call
  cases formatting with
  | text chars =>
    obtain ⟨behind, hbytes⟩ := format_bytes chars (.zero (runtimeMessageCapacity + 1))
    obtain ⟨rest, hrest⟩ := exists_string (chars.take runtimeMessageCapacity) behind
    rw [← List.take_takeWhile] at hrest
    refine ⟨⟨fun hmem => nul_notMem_takeWhile chars (List.mem_of_mem_take hmem), rest, beyond, ?_⟩, rfl,
      List.length_take_le _ _⟩
    exact congrArg (memory · beyond) (hbytes.trans hrest)
  | failed written =>
    have hfits := written.fits
    have hzeros : runtimeMessageCapacity + 1 - written.chars.length =
        (runtimeMessageCapacity - written.chars.length) + 1 := by omega
    have hbytes : written.chars ++ List.replicate (runtimeMessageCapacity + 1 - written.chars.length) 0#8 =
        written.chars ++ 0#8 :: List.replicate (runtimeMessageCapacity - written.chars.length) 0#8 := by
      rw [hzeros, List.replicate_succ]
    exact ⟨⟨written.noNul, _, beyond, congrArg (memory · beyond) hbytes⟩, rfl, hfits⟩

theorem name_points (text : Text) (beyond : Memory) :
    Points (some (memory (text.chars ++ [0#8]) beyond)) text.chars :=
  points_pointer (some text) beyond

/-- A runtime record that is made of a call's texts tells of the call. -/
theorem runtimeRecord_tells (kind : Kind) (call : Call) (now : Timestamp) :
    Tells kind call now (Forwarding.runtimeRecord kind.severity kind.category kind.origin call.message
      call.truncated call.line call.functionName call.fileName now) := by
  obtain ⟨hmessage, htruncated, hfits⟩ := message_points call
  obtain ⟨hchars, hflag⟩ := copied_points hmessage runtimeMessageCapacity
  obtain ⟨hfunction, -⟩ := copied_points (name_points call.location.functionName call.beyond) functionCapacity
  obtain ⟨hfile, -⟩ := copied_points (name_points call.location.fileName call.beyond) fileCapacity
  obtain ⟨horigin, -⟩ := copied_points (points_literal kind.origin kind.origin_noNul) TransportOrder.originCapacity
  refine ⟨rfl, rfl, rfl, ?_, _, rfl, ?_, ?_, rfl, hfunction, hfile⟩
  · exact horigin.trans (List.take_of_length_le kind.length_origin)
  · exact hchars.trans (List.take_of_length_le hfits)
  · change (call.truncated || _) = _
    rw [hflag, decide_eq_false (Nat.not_lt.mpr hfits), Bool.or_false, htruncated]

/-! ## Requested faults -/

/-- A cause whose record, whenever it is made, tells of a call. -/
def Explains (kind : Kind) (call : Call) (cause : FaultCause) : Prop :=
  ∀ beyond now, ∃ record, (toRecord cause beyond now).map DiagnosticRecord.content = some record ∧
    Tells kind call now record

theorem panic_explains (call : Call) :
    ∃ cause, FaultCause.panic (some call.message) call.truncated call.line (some call.functionName)
        (some call.fileName) = some cause ∧ Explains .panic call cause := by
  obtain ⟨cause, hcause, hkind, hrecord⟩ := runtimeCause_record .panic .runtimePanic
    (Kind.origin_noNul .panic) (message_points call).1 (name_points call.location.functionName call.beyond)
    (name_points call.location.fileName call.beyond) call.truncated call.location.line
  refine ⟨cause, hcause, fun beyond now => ⟨_, ?_, runtimeRecord_tells .panic call now⟩⟩
  rw [toRecord, hkind]
  exact hrecord beyond now

theorem runtimeFault_explains (call : Call) :
    ∃ cause, FaultCause.runtimeFault (some call.message) call.truncated call.line (some call.functionName)
        (some call.fileName) = some cause ∧ Explains .fault call cause := by
  obtain ⟨cause, hcause, hkind, hrecord⟩ := runtimeCause_record .runtimeFault .runtimeFault
    (Kind.origin_noNul .fault) (message_points call).1 (name_points call.location.functionName call.beyond)
    (name_points call.location.fileName call.beyond) call.truncated call.location.line
  refine ⟨cause, hcause, fun beyond now => ⟨_, ?_, runtimeRecord_tells .fault call now⟩⟩
  rw [toRecord, hkind]
  exact hrecord beyond now

/-- The cause that a request publishes last is its own. -/
theorem published_requestFault (prog : Program FaultCause υ) (cause : FaultCause) (w : CWorld FaultCause υ) :
    ∃ before, (requestFault prog cause w).user.published = before ++ [cause] := by
  cases hf : w.user.faulted with
  | true =>
    rw [requestAgain_eq prog cause hf]
    exact ⟨_, rfl⟩
  | false =>
    rw [requestFault_first prog cause hf]
    exact ⟨_, rfl⟩

/-- What a report does to the board. -/
inductive Does (prog : Program FaultCause υ) (report : Report) (b : Board υ) : Board υ → Prop
  | requests (cause : FaultCause) (hfatal : report.kind.isFatal = true)
      (hexplains : Explains report.kind report.call cause) :
      Does prog report b { b with world := requestFault prog cause b.world }
  | publishes (record : Record) (hfatal : report.kind.isFatal = false)
      (htells : Tells report.kind report.call report.now record) :
      Does prog report b { b with records := b.records ++ [record] }

theorem run_does (prog : Program FaultCause υ) (report : Report) (b : Board υ) :
    ∃ b', report.run prog b = some b' ∧ Does prog report b b' := by
  obtain ⟨kind, call, now⟩ := report
  cases kind with
  | panic =>
    obtain ⟨cause, hcause, hexplains⟩ := panic_explains call
    refine ⟨_, ?_, .requests cause rfl hexplains⟩
    rw [Report.run, PanicReporter.trigger, hcause]
    rfl
  | fault =>
    obtain ⟨cause, hcause, hexplains⟩ := runtimeFault_explains call
    refine ⟨_, ?_, .requests cause rfl hexplains⟩
    rw [Report.run, FaultReporter.trigger, hcause]
    rfl
  | warning => exact ⟨_, rfl, .publishes _ rfl (runtimeRecord_tells .warning call now)⟩
  | info => exact ⟨_, rfl, .publishes _ rfl (runtimeRecord_tells .info call now)⟩

/-! ## Many reports -/

/-- The controller is latched by the first panic or fault, if there was one. -/
structure Stands (first : Option Report) (b : Board υ) : Prop where
  latched : Latched b.world
  faulted : isFaulted b.world = first.isSome
  cause : ∀ report, first = some report → ∃ cause,
    b.world.user.requested.head? = some cause ∧ Explains report.kind report.call cause

theorem head?_of_prefix {α : Type} {l l' : List α} (h : l <+: l') {a : α} (ha : l.head? = some a) :
    l'.head? = some a := by
  obtain ⟨rest, rfl⟩ := h
  rw [List.head?_append, ha]
  rfl

theorem Does.stands {prog : Program FaultCause υ} {report : Report} {b b' : Board υ} {first : Option Report}
    (hd : Does prog report b b') (h : Stands first b) :
    Stands (first.or (if report.kind.isFatal then some report else none)) b' := by
  cases hd with
  | requests cause hfatal hexplains =>
    obtain ⟨hlatched, hafter⟩ : Latched (requestFault prog cause b.world) ∧
        After (Protections.FaultController.recordRequest cause b.world) (requestFault prog cause b.world) :=
      requestFault_latched cause h.latched
    have hrequested : b.world.user.requested ++ [cause] <+: (requestFault prog cause b.world).user.requested :=
      hafter.requested
    rw [if_pos hfatal]
    refine ⟨hlatched, ?_, ?_⟩
    · rw [Option.isSome_or, Option.isSome_some, Bool.or_true]
      exact requestFault_faulted cause h.latched
    · intro r hr
      cases first with
      | some r' =>
        -- the first cause stays where it is
        obtain ⟨cause', hhead, hexplains'⟩ := h.cause r' rfl
        cases hr
        exact ⟨cause', head?_of_prefix ((List.prefix_append _ _).trans hrequested) hhead, hexplains'⟩
      | none =>
        cases hr
        have hnone : b.world.user.requested = [] := by
          have hfaulted := h.latched.faulted.symm.trans h.faulted
          simpa using hfaulted
        rw [hnone] at hrequested
        exact ⟨cause, head?_of_prefix hrequested rfl, hexplains⟩
  | publishes record hfatal =>
    rw [if_neg (Bool.eq_false_iff.mp hfatal), Option.or_none]
    exact ⟨h.latched, h.faulted, h.cause⟩

theorem find?_fatal (report : Report) (reports : List Report) :
    (report :: reports).find? (·.kind.isFatal) =
      (if report.kind.isFatal then some report else none).or (reports.find? (·.kind.isFatal)) := by
  rw [List.find?_cons]
  cases report.kind.isFatal <;> rfl

theorem runAll_stands (prog : Program FaultCause υ) (reports : List Report) {first : Option Report} {b : Board υ}
    (h : Stands first b) :
    ∃ b' records, runAll prog reports b = some b' ∧
      Stands (first.or (reports.find? (·.kind.isFatal))) b' ∧ b'.records = b.records ++ records ∧
      List.Forall₂ (fun report record => Tells report.kind report.call report.now record)
        (reports.filter (!·.kind.isFatal)) records := by
  induction reports generalizing first b with
  | nil =>
    refine ⟨b, [], rfl, ?_, (List.append_nil _).symm, .nil⟩
    rwa [List.find?_nil, Option.or_none]
  | cons report reports ih =>
    obtain ⟨b₁, hrun, hdoes⟩ := run_does prog report b
    obtain ⟨b', records, hruns, hstands, hrecords, htell⟩ := ih (hdoes.stands h)
    rw [runAll, hrun, Option.bind_some]
    rw [find?_fatal, ← Option.or_assoc]
    cases hdoes with
    | requests cause hfatal =>
      refine ⟨b', records, hruns, hstands, hrecords, ?_⟩
      rwa [List.filter_cons_of_neg (by rw [hfatal]; decide)]
    | publishes record hfatal htells =>
      refine ⟨b', record :: records, hruns, hstands, ?_, ?_⟩
      · rw [hrecords, List.append_assoc]
        rfl
      · rw [List.filter_cons_of_pos (by rw [hfatal]; rfl)]
        exact .cons htells htell

/-! ## Main results -/

/-- **A report is told**: a panic and a fault by the cause that the controller publishes last, whose
record tells of the call, a warning and an information by a record right away. -/
theorem report_told (prog : Program FaultCause υ) (report : Report) (b : Board υ) :
    ∃ b', report.run prog b = some b' ∧
      (report.kind.isFatal = true → b'.records = b.records ∧ ∃ before cause,
        b'.world.user.published = before ++ [cause] ∧ Explains report.kind report.call cause) ∧
      (report.kind.isFatal = false → b'.world = b.world ∧ ∃ record,
        b'.records = b.records ++ [record] ∧ Tells report.kind report.call report.now record) := by
  obtain ⟨b', hrun, hdoes⟩ := run_does prog report b
  refine ⟨b', hrun, ?_⟩
  cases hdoes with
  | requests cause hfatal hexplains =>
    obtain ⟨before, hbefore⟩ := published_requestFault prog cause b.world
    refine ⟨fun _ => ⟨rfl, before, cause, hbefore, hexplains⟩, fun hnot => ?_⟩
    rw [hfatal] at hnot
    cases hnot
  | publishes record hfatal htells =>
    refine ⟨fun hnot => ?_, fun _ => ⟨rfl, record, rfl, htells⟩⟩
    rw [hfatal] at hnot
    cases hnot

/-- **The first panic or fault is latched.** However a board that is not faulted goes on to report, it
is faulted once it has reported a panic or a fault, with a cause that explains the first of them, and
every warning and every information is told in a record, in their order. -/
theorem first_report_latched (prog : Program FaultCause υ) {b : Board υ} (h : Latched b.world)
    (hfaulted : isFaulted b.world = false) (reports : List Report) :
    ∃ b' records, runAll prog reports b = some b' ∧
      isFaulted b'.world = (reports.find? (·.kind.isFatal)).isSome ∧
      (∀ report, reports.find? (·.kind.isFatal) = some report →
        ∃ cause, latchedFaultCause b'.world = some cause ∧ Explains report.kind report.call cause) ∧
      b'.records = b.records ++ records ∧
      List.Forall₂ (fun report record => Tells report.kind report.call report.now record)
        (reports.filter (!·.kind.isFatal)) records := by
  have hstands : Stands none b := ⟨h, hfaulted, nofun⟩
  obtain ⟨b', records, hrun, hend, hrecords, htell⟩ := runAll_stands prog reports hstands
  rw [Option.none_or] at hend
  refine ⟨b', records, hrun, hend.faulted, fun report hreport => ?_, hrecords, htell⟩
  obtain ⟨cause, hhead, hexplains⟩ := hend.cause report hreport
  have hhas : b'.world.user.hasLatchedCause = true := by
    rw [hend.latched.hasCause]
    exact hend.faulted.trans (by rw [hreport]; rfl)
  refine ⟨cause, ?_, hexplains⟩
  rw [latchedFaultCause, if_pos hhas, hend.latched.cause cause hhead]

instance : Inhabited FaultCause := ⟨{}⟩

/-- A program that does nothing. -/
def silentProgram : Program FaultCause Unit where
  action _ := []
  guard _ := ([], fun _ => false)
  panicCause _ := default

/-- A board that has just started. -/
def startedBoard : Board Unit where
  world :=
    { currentState := fun _ => 0
      cyclicActions := fun _ _ => []
      sched := Scheduler.Model.initial
      user := { latchedCause := default, program := () } }

theorem startedBoard_latched : Latched startedBoard.world := Protections.FaultLatch.fresh_latched rfl

def lostTracking : Report where
  kind := .panic
  call :=
    { location := { line := 12#32, functionName := ⟨[], nul_notMem_nil⟩, fileName := ⟨[], nul_notMem_nil⟩ }
      formatting := .text (ascii "Lost tracking")
      beyond := fun _ => 0#8 }
  now := {}

/-- The first of two panics is latched. -/
theorem first_report_latched_panic :
    ∃ b' cause, runAll silentProgram [lostTracking, lostTracking] startedBoard = some b' ∧
      latchedFaultCause b'.world = some cause ∧ Explains .panic lostTracking.call cause := by
  obtain ⟨b', -, hrun, -, hcause, -⟩ :=
    first_report_latched silentProgram startedBoard_latched rfl [lostTracking, lostTracking]
  obtain ⟨cause, hlatched, hexplains⟩ := hcause lostTracking rfl
  exact ⟨b', cause, hrun, hlatched, hexplains⟩

end StLib.Diagnostics.Reports
