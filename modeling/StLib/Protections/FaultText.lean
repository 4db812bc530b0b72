import StLib.Diagnostics.Forwarding
import StLib.Protections.Model

/-! # The texts of a fault

`FaultCause` and `FaultDiagnosticMapper` of `FaultController.cpp`, and the `RecordFactory` of
`DiagnosticsHub.cpp` as far as causes are mapped to its records. The arrays of characters are
written byte by byte; a write outside of one has no result. -/
namespace StLib.Protections.FaultText

open StLib.Base.Bytes
open StLib.Diagnostics.Forwarding (Category runtimeMessageCapacity functionCapacity fileCapacity literal)
open StLib.Diagnostics.Hub (DiagnosticPriority)
open StLib.Diagnostics.TransportOrder (Severity Timestamp originCapacity)
open StLib.Protections.Model

/-! ## Copies -/

/-- `char[size]`. -/
structure CharArray (size : Nat) where
  bytes : List Byte
  length : bytes.length = size

def CharArray.zero (size : Nat) : CharArray size where
  bytes := List.replicate size 0#8
  length := List.length_replicate

/-- `memcpy(dst, src, n)`. -/
def CharArray.copy {size : Nat} (src : Memory) (n : Nat) (dst : CharArray size) : Option (CharArray size) :=
  if h : n ≤ size then
    some
      { bytes := src.bytes n ++ dst.bytes.drop n
        length := by
          rw [List.length_append, List.length_drop, dst.length, Memory.bytes, List.length_map,
            List.length_range]
          omega }
  else none

/-- `dst[i] = c`. -/
def CharArray.put {size : Nat} (i : Nat) (c : Byte) (dst : CharArray size) : Option (CharArray size) :=
  if i < size then some { bytes := dst.bytes.set i c, length := List.length_set.trans dst.length } else none

/-- The two functions `copy_c_string`, which count the characters in their own ways. The flag
comes back as it is afterwards; where the pointer to it is null it is not looked at. -/
def copyText (count : Option Memory → Nat → Nat) {size : Nat} (src : Option Memory)
    (dst : CharArray size) (truncated : Bool) : Option (CharArray size × Bool) :=
  if size = 0 then some (dst, true)
  else
    match src with
    | none => (dst.put 0 0#8).map fun dst => (dst, truncated)
    | some text => do
      let length := count src (size - 1)
      let dst ← dst.copy text length
      let dst ← dst.put length 0#8
      some (dst, truncated || text length != 0#8)

/-- The loop of `bounded_strnlen`, so many characters before its bound. -/
def boundedLoop (src : Memory) : Nat → Nat → Nat
  | 0, length => length
  | left + 1, length => if src length ≠ 0#8 then boundedLoop src left (length + 1) else length

def boundedStrnlen (src : Option Memory) (maxLength : Nat) : Nat :=
  match src with
  | none => 0
  | some src => boundedLoop src maxLength 0

/-- `strnlen`, of a pointer that is not null. -/
def standardStrnlen (src : Option Memory) (maxLength : Nat) : Nat :=
  match src with
  | none => 0
  | some src => strnlen src maxLength

/-! ## Causes -/

namespace FaultController

/-- `copy_c_string` of `FaultController.cpp`. -/
def copyCString {size : Nat} : Option Memory → CharArray size → Bool → Option (CharArray size × Bool) :=
  copyText standardStrnlen

end FaultController

inductive FaultCauseKind
  | panic
  | runtimeFault
  | protection
deriving DecidableEq

structure FaultRuntimePayload where
  line : BitVec 32 := 0#32
  truncated : Bool := false
  message : CharArray (runtimeMessageCapacity + 1) := .zero _
  functionName : CharArray (functionCapacity + 1) := .zero _
  fileName : CharArray (fileCapacity + 1) := .zero _

structure FaultProtectionPayload where
  edge : RuleEdge := .none
  snapshot : RuleSnapshot := {}

structure FaultCause where
  kind : FaultCauseKind := .panic
  origin : CharArray (originCapacity + 1) := .zero _
  runtime : FaultRuntimePayload := {}
  protectionEvent : FaultProtectionPayload := {}

/-- `static_cast<uint32_t>(line < 0 ? 0 : line)`. -/
def lineNumber (line : Int) : BitVec 32 := BitVec.ofInt 32 (max line 0)

/-- What `FaultCause::panic` and `FaultCause::runtime_fault` have in common. -/
def runtimeCause (kind : FaultCauseKind) (origin : String) (message : Option Memory) (truncated : Bool)
    (line : Int) (func file : Option Memory) : Option FaultCause := do
  let (origin, _) ← FaultController.copyCString (some (literal origin)) (.zero _) false
  let (message, truncated) ← FaultController.copyCString message (.zero _) truncated
  let (functionName, _) ← FaultController.copyCString func (.zero _) false
  let (fileName, _) ← FaultController.copyCString file (.zero _) false
  some { kind, origin, runtime := { line := lineNumber line, truncated, message, functionName, fileName } }

namespace FaultCause

def panic : Option Memory → Bool → Int → Option Memory → Option Memory → Option FaultCause :=
  runtimeCause .panic "runtime_panic"

def runtimeFault : Option Memory → Bool → Int → Option Memory → Option Memory → Option FaultCause :=
  runtimeCause .runtimeFault "runtime_fault"

def protection (protectionName : Option Memory) (edge : RuleEdge) (snapshot : RuleSnapshot) :
    Option FaultCause := do
  let (origin, _) ← FaultController.copyCString protectionName (.zero _) false
  some { kind := .protection, origin, protectionEvent := { edge, snapshot } }

end FaultCause

/-! ## Records -/

structure RuntimeDiagnosticPayload where
  line : BitVec 32
  truncated : Bool
  message : CharArray (runtimeMessageCapacity + 1)
  functionName : CharArray (functionCapacity + 1)
  fileName : CharArray (fileCapacity + 1)

/-- The other fields are copied out of the snapshot. -/
structure ProtectionDiagnosticPayload where
  state : RuleState
  edge : RuleEdge
  snapshot : RuleSnapshot

/-- The union, with the member that is set. -/
inductive DiagnosticPayload
  | runtime (payload : RuntimeDiagnosticPayload)
  | protection (payload : ProtectionDiagnosticPayload)

structure DiagnosticRecord where
  priority : DiagnosticPriority
  severity : Severity
  category : Category
  timestamp : Timestamp
  origin : CharArray (originCapacity + 1)
  payload : DiagnosticPayload

namespace Diagnostics

/-- `copy_c_string` of `DiagnosticsHub.cpp`. -/
def copyCString {size : Nat} : Option Memory → CharArray size → Bool → Option (CharArray size × Bool) :=
  copyText boundedStrnlen

end Diagnostics

namespace RecordFactory

/-- What `runtime_panic` and `runtime_fault` have in common. -/
def runtimeRecord (category : Category) (origin : String) (message : Option Memory) (truncated : Bool)
    (line : Int) (functionName fileName : Option Memory) (priority : DiagnosticPriority)
    (now : Timestamp) : Option DiagnosticRecord := do
  let (origin, _) ← Diagnostics.copyCString (some (literal origin)) (.zero _) false
  let (message, truncated) ← Diagnostics.copyCString message (.zero _) truncated
  let (functionName, _) ← Diagnostics.copyCString functionName (.zero _) false
  let (fileName, _) ← Diagnostics.copyCString fileName (.zero _) false
  some {
    priority
    severity := .fault
    category
    timestamp := now
    origin
    payload := .runtime { line := lineNumber line, truncated, message, functionName, fileName } }

def runtimePanic : Option Memory → Bool → Int → Option Memory → Option Memory → DiagnosticPriority →
    Timestamp → Option DiagnosticRecord :=
  runtimeRecord .runtimePanic "runtime_panic"

def runtimeFault : Option Memory → Bool → Int → Option Memory → Option Memory → DiagnosticPriority →
    Timestamp → Option DiagnosticRecord :=
  runtimeRecord .runtimeFault "runtime_fault"

def protectionEvent (protectionName : Option Memory) (state : RuleState) (edge : RuleEdge)
    (snapshot : RuleSnapshot) (priority : DiagnosticPriority) (now : Timestamp) :
    Option DiagnosticRecord := do
  let (origin, _) ← Diagnostics.copyCString protectionName (.zero _) false
  some {
    priority
    severity :=
      match state with
      | .fault => .fault
      | .warning => .warning
      | .normal => .info
    category := .protectionEvent
    timestamp := now
    origin
    payload := .protection { state, edge, snapshot } }

end RecordFactory

/-- A pointer to an array, behind which memory goes on. -/
def CharArray.pointer {size : Nat} (a : CharArray size) (beyond : Memory) : Option Memory :=
  some (memory a.bytes beyond)

/-- `FaultDiagnosticMapper::to_record`. -/
def toRecord (cause : FaultCause) (beyond : Memory) (now : Timestamp) : Option DiagnosticRecord :=
  match cause.kind with
  | .panic =>
    RecordFactory.runtimePanic (cause.runtime.message.pointer beyond) cause.runtime.truncated
      cause.runtime.line.toInt (cause.runtime.functionName.pointer beyond)
      (cause.runtime.fileName.pointer beyond) .urgent now
  | .runtimeFault =>
    RecordFactory.runtimeFault (cause.runtime.message.pointer beyond) cause.runtime.truncated
      cause.runtime.line.toInt (cause.runtime.functionName.pointer beyond)
      (cause.runtime.fileName.pointer beyond) .urgent now
  | .protection =>
    RecordFactory.protectionEvent (cause.origin.pointer beyond) .fault cause.protectionEvent.edge
      cause.protectionEvent.snapshot .urgent now

/-! ## Texts -/

/-- The characters of a string, less the terminator. -/
structure Text where
  chars : List Byte
  noNul : 0#8 ∉ chars

/-- A pointer to a string, or a null pointer. -/
def pointer (text : Option Text) (beyond : Memory) : Option Memory :=
  text.map fun t => memory (t.chars ++ [0#8]) beyond

/-- There are no characters at a null pointer. -/
def characters (text : Option Text) : List Byte :=
  match text with
  | none => []
  | some t => t.chars

/-- What is a string for the copies. -/
def Points (src : Option Memory) (chars : List Byte) : Prop :=
  match src with
  | none => chars = []
  | some text => 0#8 ∉ chars ∧ ∃ rest beyond, text = memory (chars ++ 0#8 :: rest) beyond

/-- A part of a text from its beginning that fits and that no longer one does. -/
structure LongestPrefix (capacity : Nat) (text kept : List Byte) : Prop where
  isPrefix : kept <+: text
  fits : kept.length ≤ capacity
  longest : ∀ l, l <+: text → l.length ≤ capacity → l.length ≤ kept.length

/-- The array holds as much of the text as it can, with a terminator inside of it. -/
def Stores {capacity : Nat} (a : CharArray (capacity + 1)) (text : List Byte) : Prop :=
  ∃ kept rest, a.bytes = kept ++ 0#8 :: rest ∧ 0#8 ∉ kept ∧ LongestPrefix capacity text kept

theorem longestPrefix_take (capacity : Nat) (text : List Byte) :
    LongestPrefix capacity text (text.take capacity) where
  isPrefix := List.take_prefix _ _
  fits := List.length_take_le _ _
  longest l hbefore hfits := by
    rw [List.length_take]
    exact Nat.le_min.mpr ⟨hfits, hbefore.length_le⟩

theorem boundedLoop_eq (src : Memory) (left length : Nat) :
    boundedLoop src left length = length + strnlen (src.advance length) left := by
  induction left generalizing length with
  | zero => rfl
  | succ left ih =>
    have hnext : (src.advance length).advance 1 = src.advance (length + 1) :=
      funext fun i => congrArg src (by omega)
    rw [boundedLoop, strnlen, ih, hnext, ite_not]
    change ite (src length = 0#8) _ _ = length + ite (src length = 0#8) _ _
    split <;> omega

/-- Both ways to count agree. -/
theorem boundedStrnlen_eq : boundedStrnlen = standardStrnlen := by
  funext src max
  cases src with
  | none => rfl
  | some src =>
    rw [boundedStrnlen, boundedLoop_eq, Nat.zero_add]
    exact congrArg (strnlen · max) (funext fun i => congrArg src (Nat.zero_add i))

theorem diagnosticsCopy_eq {size : Nat} :
    @Diagnostics.copyCString size = @FaultController.copyCString size := by
  rw [Diagnostics.copyCString, boundedStrnlen_eq]
  rfl

/-- The characters that are copied, and the one behind them. -/
theorem copied {chars : List Byte} (rest : List Byte) (beyond : Memory) (capacity : Nat) (hno : 0#8 ∉ chars) :
    (memory (chars ++ 0#8 :: rest) beyond).bytes (min chars.length capacity) = chars.take capacity ∧
      (memory (chars ++ 0#8 :: rest) beyond (min chars.length capacity) != 0#8) =
        decide (capacity < chars.length) := by
  constructor
  · have hsplit : chars ++ 0#8 :: rest = chars.take capacity ++ (chars.drop capacity ++ 0#8 :: rest) := by
      rw [← List.append_assoc, List.take_append_drop]
    have hlength : min chars.length capacity = (chars.take capacity).length := by
      rw [List.length_take, Nat.min_comm]
    rw [hlength, hsplit]
    exact bytes_memory _ _ _
  · rcases Nat.lt_or_ge capacity chars.length with hlt | hle
    · have hin : capacity < (chars ++ 0#8 :: rest).length := by
        rw [List.length_append]
        omega
      rw [Nat.min_eq_right (Nat.le_of_lt hlt), memory_of_lt hin, List.getElem_append_left hlt, decide_eq_true hlt]
      exact bne_iff_ne.mpr fun h => hno (h ▸ List.getElem_mem hlt)
    · have hin : chars.length < (chars ++ 0#8 :: rest).length := by
        rw [List.length_append, List.length_cons]
        omega
      rw [Nat.min_eq_left hle, memory_of_lt hin, List.getElem_append_right (Nat.le_refl _),
        decide_eq_false (Nat.not_lt.mpr hle)]
      simp

/-- **A copy holds the longest prefix that fits**, and notes whether something was cut off. -/
theorem copy_stores {src : Option Memory} {chars : List Byte} (h : Points src chars) {capacity : Nat}
    (dst : CharArray (capacity + 1)) (truncated : Bool) :
    ∃ a, FaultController.copyCString src dst truncated =
      some (a, truncated || decide (capacity < chars.length)) ∧ Stores a chars := by
  have hsize : ¬ capacity + 1 = 0 := Nat.succ_ne_zero _
  have hlength := dst.length
  cases src with
  | none =>
    have hchars : chars = [] := h
    subst hchars
    cases hdst : dst.bytes with
    | nil =>
      rw [hdst] at hlength
      exact absurd hlength (Nat.succ_ne_zero _).symm
    | cons b rest =>
      have hset : dst.bytes.set 0 0#8 = 0#8 :: rest := by rw [hdst, List.set_cons_zero]
      have hbefore := longestPrefix_take capacity []
      rw [List.take_nil] at hbefore
      refine ⟨{ bytes := 0#8 :: rest, length := hset ▸ List.length_set.trans hlength }, ?_, [], rest, rfl,
        List.not_mem_nil, hbefore⟩
      rw [FaultController.copyCString, copyText, if_neg hsize]
      simp only [CharArray.put, if_pos (Nat.succ_pos capacity), hset, Option.map_some]
      simp
  | some text =>
    obtain ⟨hno, rest, beyond, rfl⟩ := h
    obtain ⟨hbytes, hflag⟩ := copied rest beyond capacity hno
    have hfits : min chars.length capacity ≤ capacity + 1 := by omega
    have hin : min chars.length capacity < capacity + 1 := by omega
    have hcut : (chars.take capacity).length = min chars.length capacity := by
      rw [List.length_take, Nat.min_comm]
    cases hdrop : dst.bytes.drop (min chars.length capacity) with
    | nil =>
      have := congrArg List.length hdrop
      rw [List.length_drop, hlength] at this
      exact absurd this (by simp; omega)
    | cons b behind =>
      have hset : (chars.take capacity ++ b :: behind).set (min chars.length capacity) 0#8 =
          chars.take capacity ++ 0#8 :: behind := by
        rw [← hcut, List.set_append_right _ _ (Nat.le_refl _), Nat.sub_self, List.set_cons_zero]
      refine ⟨{ bytes := chars.take capacity ++ 0#8 :: behind, length := ?_ }, ?_, _, behind, rfl,
        fun hm => hno (List.mem_of_mem_take hm), longestPrefix_take capacity chars⟩
      · have := congrArg List.length hdrop
        rw [List.length_drop, List.length_cons, hlength] at this
        rw [List.length_append, List.length_cons, hcut]
        omega
      · rw [FaultController.copyCString, copyText, if_neg hsize]
        dsimp only [standardStrnlen]
        rw [Nat.add_sub_cancel, strnlen_min beyond capacity hno, CharArray.copy, dif_pos hfits, hflag]
        simp only [Option.bind_eq_bind, Option.bind_some, CharArray.put, if_pos hin, hbytes, hdrop, hset]

/-- What is stored is a string for the next copy, and none of it is cut off there. -/
theorem Stores.copied_again {capacity : Nat} {a : CharArray (capacity + 1)} {text : List Byte}
    (h : Stores a text) (beyond : Memory) (dst : CharArray (capacity + 1)) (truncated : Bool) :
    ∃ a', Diagnostics.copyCString (a.pointer beyond) dst truncated = some (a', truncated) ∧
      Stores a' text := by
  obtain ⟨kept, rest, hbytes, hno, hkept⟩ := h
  have hpoints : Points (a.pointer beyond) kept := ⟨hno, rest, beyond, by rw [hbytes]⟩
  obtain ⟨a', ha', kept', rest', hbytes', hno', hkept'⟩ := copy_stores hpoints dst truncated
  have hsame : kept' = kept :=
    hkept'.isPrefix.eq_of_length_le (hkept'.longest kept (List.prefix_refl _) hkept.fits)
  subst hsame
  refine ⟨a', ?_, kept', rest', hbytes', hno', hkept⟩
  rw [diagnosticsCopy_eq, ha', decide_eq_false (Nat.not_lt.mpr hkept.fits), Bool.or_false]

theorem points_pointer (text : Option Text) (beyond : Memory) :
    Points (pointer text beyond) (characters text) := by
  cases text with
  | none => rfl
  | some t => exact ⟨t.noNul, [], beyond, rfl⟩

/-- The origins are strings, too. -/
theorem points_literal (s : String) (h : 0#8 ∉ s.toList.map fun c => BitVec.ofNat 8 c.toNat) :
    Points (some (literal s)) (s.toList.map fun c => BitVec.ofNat 8 c.toNat) := by
  refine ⟨h, [], fun _ => 0#8, funext fun i => ?_⟩
  unfold literal memory
  rcases Nat.lt_or_ge i (s.toList.map fun c => BitVec.ofNat 8 c.toNat).length with hlt | hge
  · rw [List.getElem?_append_left hlt, List.getElem?_eq_getElem hlt]
  · rw [List.getElem?_append_right hge, List.getElem?_eq_none hge]
    cases i - (s.toList.map fun c => BitVec.ofNat 8 c.toNat).length <;> rfl

/-! ## From the caller to the record -/

/-- The arrays and the flag of a runtime payload, for the texts of the caller. -/
structure Texts (message functionName fileName : Option Text) (flagged : Bool)
    (storedMessage : CharArray (runtimeMessageCapacity + 1))
    (storedFunctionName : CharArray (functionCapacity + 1))
    (storedFileName : CharArray (fileCapacity + 1)) (truncated : Bool) : Prop where
  message_stored : Stores storedMessage (characters message)
  functionName_stored : Stores storedFunctionName (characters functionName)
  fileName_stored : Stores storedFileName (characters fileName)
  truncated_iff : truncated = true ↔
    flagged = true ∨ runtimeMessageCapacity < (characters message).length

section

variable {message functionName fileName : Option Text} {flagged : Bool}

theorem runtimeCause_texts (origin : String) (kind : FaultCauseKind)
    (horigin : 0#8 ∉ origin.toList.map fun c => BitVec.ofNat 8 c.toNat)
    (message functionName fileName : Option Text) (flagged : Bool) (line : Int) (beyond : Memory) :
    ∃ cause, runtimeCause kind origin (pointer message beyond) flagged line (pointer functionName beyond)
        (pointer fileName beyond) = some cause ∧ cause.kind = kind ∧
      Texts message functionName fileName flagged cause.runtime.message cause.runtime.functionName
        cause.runtime.fileName cause.runtime.truncated := by
  obtain ⟨o, ho, -⟩ := copy_stores (points_literal origin horigin) (.zero (originCapacity + 1)) false
  obtain ⟨m, hm, hmessage⟩ := copy_stores (points_pointer message beyond) (.zero _) flagged
  obtain ⟨n, hn, hname⟩ := copy_stores (points_pointer functionName beyond) (.zero _) false
  obtain ⟨f, hf, hfile⟩ := copy_stores (points_pointer fileName beyond) (.zero _) false
  refine ⟨_, by rw [runtimeCause, ho, hm, hn, hf]; rfl, rfl, hmessage, hname, hfile, ?_⟩
  rw [Bool.or_eq_true_iff, decide_eq_true_iff]

theorem runtimeRecord_texts (origin : String) (category : Category)
    (horigin : 0#8 ∉ origin.toList.map fun c => BitVec.ofNat 8 c.toNat) {runtime : FaultRuntimePayload}
    (h : Texts message functionName fileName flagged runtime.message runtime.functionName runtime.fileName
      runtime.truncated) (line : Int) (priority : DiagnosticPriority) (beyond : Memory) (now : Timestamp) :
    ∃ record payload, RecordFactory.runtimeRecord category origin (runtime.message.pointer beyond)
        runtime.truncated line (runtime.functionName.pointer beyond) (runtime.fileName.pointer beyond)
        priority now = some record ∧ record.payload = .runtime payload ∧
      Texts message functionName fileName flagged payload.message payload.functionName payload.fileName
        payload.truncated := by
  obtain ⟨o, ho, -⟩ := copy_stores (points_literal origin horigin) (.zero (originCapacity + 1)) false
  rw [← diagnosticsCopy_eq] at ho
  obtain ⟨m, hm, hmessage⟩ := h.message_stored.copied_again beyond (.zero _) runtime.truncated
  obtain ⟨n, hn, hname⟩ := h.functionName_stored.copied_again beyond (.zero _) false
  obtain ⟨f, hf, hfile⟩ := h.fileName_stored.copied_again beyond (.zero _) false
  exact ⟨_, _, by rw [RecordFactory.runtimeRecord, ho, hm, hn, hf]; rfl, rfl, hmessage, hname, hfile,
    h.truncated_iff⟩

end

/-- The cause of a runtime fault and its record keep the texts of the caller. -/
def RuntimePreserved (message functionName fileName : Option Text) (flagged : Bool) (beyond : Memory)
    (now : Timestamp) (cause : Option FaultCause) : Prop :=
  ∃ c record payload, cause = some c ∧ toRecord c beyond now = some record ∧
    record.payload = .runtime payload ∧
    Texts message functionName fileName flagged c.runtime.message c.runtime.functionName
      c.runtime.fileName c.runtime.truncated ∧
    Texts message functionName fileName flagged payload.message payload.functionName payload.fileName
      payload.truncated

/-- **Texts are preserved end to end.** Of every message, function, file and protection name the
cause and the record hold the longest prefix that fits, with its terminator inside of the
array. The flag of the record is set when the caller's is or the message was cut. -/
theorem fault_text_preserved (message functionName fileName protectionName : Option Text)
    (flagged : Bool) (line : Int) (edge : RuleEdge) (snapshot : RuleSnapshot) (beyond : Memory)
    (now : Timestamp) :
    RuntimePreserved message functionName fileName flagged beyond now
        (FaultCause.panic (pointer message beyond) flagged line (pointer functionName beyond)
          (pointer fileName beyond)) ∧
      RuntimePreserved message functionName fileName flagged beyond now
        (FaultCause.runtimeFault (pointer message beyond) flagged line (pointer functionName beyond)
          (pointer fileName beyond)) ∧
      ∃ cause record, FaultCause.protection (pointer protectionName beyond) edge snapshot = some cause ∧
        toRecord cause beyond now = some record ∧ Stores cause.origin (characters protectionName) ∧
        Stores record.origin (characters protectionName) := by
  refine ⟨?_, ?_, ?_⟩
  · obtain ⟨c, hc, hkind, htexts⟩ := runtimeCause_texts "runtime_panic" .panic (by decide)
      message functionName fileName flagged line beyond
    obtain ⟨record, payload, hrecord, hpayload, hkept⟩ := runtimeRecord_texts "runtime_panic"
      .runtimePanic (by decide) htexts c.runtime.line.toInt .urgent beyond now
    exact ⟨c, record, payload, hc, by rw [toRecord, hkind]; exact hrecord, hpayload, htexts, hkept⟩
  · obtain ⟨c, hc, hkind, htexts⟩ := runtimeCause_texts "runtime_fault" .runtimeFault
      (by decide) message functionName fileName flagged line beyond
    obtain ⟨record, payload, hrecord, hpayload, hkept⟩ := runtimeRecord_texts "runtime_fault"
      .runtimeFault (by decide) htexts c.runtime.line.toInt .urgent beyond now
    exact ⟨c, record, payload, hc, by rw [toRecord, hkind]; exact hrecord, hpayload, htexts, hkept⟩
  · obtain ⟨o, ho, hstored⟩ := copy_stores (points_pointer protectionName beyond) (.zero _) false
    obtain ⟨o', ho', hagain⟩ := hstored.copied_again beyond (.zero _) false
    have hrecord : ∃ record, RecordFactory.protectionEvent (o.pointer beyond) .fault edge snapshot .urgent
        now = some record ∧ record.origin = o' := ⟨_, by rw [RecordFactory.protectionEvent, ho']; rfl, rfl⟩
    obtain ⟨record, hrecord, rfl⟩ := hrecord
    refine ⟨{ kind := .protection, origin := o, protectionEvent := { edge, snapshot } }, record, ?_, hrecord,
      hstored, hagain⟩
    rw [FaultCause.protection, ho]
    rfl

/-! ## The records with strings for the arrays -/

/-- The string in an array. -/
def CharArray.string {capacity : Nat} (a : CharArray (capacity + 1)) : CString capacity :=
  copyCString capacity (memory a.bytes fun _ => 0#8)

def DiagnosticRecord.content (record : DiagnosticRecord) :
    Diagnostics.Forwarding.Content ProtectionDiagnosticPayload where
  severity := record.severity
  category := record.category
  timestamp := record.timestamp
  origin := record.origin.string
  payload :=
    match record.payload with
    | .runtime payload => .runtime {
        line := payload.line
        truncated := payload.truncated
        message := payload.message.string
        functionName := payload.functionName.string
        fileName := payload.fileName.string }
    | .protection payload => .protection payload

theorem LongestPrefix.eq_take {capacity : Nat} {text kept : List Byte}
    (h : LongestPrefix capacity text kept) : kept = text.take capacity := by
  have htake := longestPrefix_take capacity text
  have hle := h.longest _ htake.isPrefix htake.fits
  have hge := htake.longest _ h.isPrefix h.fits
  rw [List.prefix_iff_eq_take.mp h.isPrefix, Nat.le_antisymm hge hle, List.length_take]
  simp

/-- A copy out of an array is one from where the array was copied. -/
theorem Stores.copy_eq {capacity : Nat} {a : CharArray (capacity + 1)} {m : Memory} {chars : List Byte}
    (h : Stores a chars) (hm : Points (some m) chars) (beyond : Memory) :
    copyCString capacity (memory a.bytes beyond) = copyCString capacity m := by
  obtain ⟨kept, rest, hbytes, hno, hkept⟩ := h
  obtain ⟨hchars, rest', beyond', rfl⟩ := hm
  ext1
  change (memory a.bytes _).bytes (strnlen _ capacity) = (memory _ beyond').bytes (strnlen _ capacity)
  rw [hbytes, strnlen_min _ capacity hno, strnlen_min _ capacity hchars, (copied _ _ capacity hno).1,
    (copied _ _ capacity hchars).1, hkept.eq_take, List.take_take, Nat.min_self]

/-- The string in an array is the one that the pointer it was copied from shows. -/
theorem Stores.string {capacity : Nat} {a : CharArray (capacity + 1)} {m : Memory} {chars : List Byte}
    (h : Stores a chars) (hm : Points (some m) chars) : a.string = copyCString capacity m :=
  h.copy_eq hm _

/-- A copy of a string, and the character behind what is copied. -/
theorem copied_points {m : Memory} {chars : List Byte} (h : Points (some m) chars) (capacity : Nat) :
    (copyCString capacity m).chars = chars.take capacity ∧
      (m (strnlen m capacity) != 0#8) = decide (capacity < chars.length) := by
  obtain ⟨hno, rest, beyond, rfl⟩ := h
  obtain ⟨hchars, hflag⟩ := copied rest beyond capacity hno
  rw [strnlen_min _ _ hno]
  refine ⟨?_, hflag⟩
  change (memory (chars ++ 0#8 :: rest) beyond).bytes (strnlen _ capacity) = _
  rw [strnlen_min _ _ hno, hchars]

/-- The record of a runtime fault or a panic, with the strings for its arrays, is one of those
that the boards that forward to each other publish. -/
theorem runtimeRecord_content {m n f : Memory} {message functionName fileName : List Byte} (category : Category)
    {origin : String} (horigin : 0#8 ∉ origin.toList.map fun c => BitVec.ofNat 8 c.toNat)
    (hm : Points (some m) message) (hn : Points (some n) functionName) (hf : Points (some f) fileName)
    (truncated : Bool) (line : Int) (priority : DiagnosticPriority) (now : Timestamp) :
    (RecordFactory.runtimeRecord category origin (some m) truncated line (some n) (some f) priority now).map
        DiagnosticRecord.content =
      some (Diagnostics.Forwarding.runtimeRecord .fault category origin m truncated line n f now) := by
  have hpoints := points_literal origin horigin
  obtain ⟨o, ho, hostored⟩ := copy_stores hpoints (.zero (originCapacity + 1)) false
  obtain ⟨m', hm', hmstored⟩ := copy_stores hm (.zero (runtimeMessageCapacity + 1)) truncated
  obtain ⟨n', hn', hnstored⟩ := copy_stores hn (.zero (functionCapacity + 1)) false
  obtain ⟨f', hf', hfstored⟩ := copy_stores hf (.zero (fileCapacity + 1)) false
  rw [RecordFactory.runtimeRecord, diagnosticsCopy_eq, diagnosticsCopy_eq, diagnosticsCopy_eq,
    diagnosticsCopy_eq, ho, hm', hn', hf']
  simp only [Option.bind_eq_bind, Option.bind_some, Option.map_some, DiagnosticRecord.content,
    hostored.string hpoints, hmstored.string hm, hnstored.string hn, hfstored.string hf,
    ← (copied_points hm runtimeMessageCapacity).2]
  rfl

/-- What a copy stores is a string for a pointer to the array. -/
theorem Stores.points {capacity : Nat} {a : CharArray (capacity + 1)} {text : List Byte} (h : Stores a text)
    (beyond : Memory) : Points (a.pointer beyond) (text.take capacity) := by
  obtain ⟨kept, rest, hbytes, hno, hkept⟩ := h
  exact hkept.eq_take ▸ ⟨hno, rest, beyond, by rw [hbytes]⟩

theorem toInt_lineNumber (line : BitVec 32) : (lineNumber line.toInt).toInt = max line.toInt 0 := by
  have hlt := BitVec.toInt_lt (x := line)
  have hle := BitVec.le_toInt (x := line)
  rw [lineNumber, BitVec.toInt_ofInt]
  exact Int.bmod_eq_of_le (by omega) (by omega)

/-- **From a call to its record**: the cause that is made of the texts, and the record that is
made of the cause. -/
theorem runtimeCause_record {m n f : Memory} {message functionName fileName : List Byte} (kind : FaultCauseKind)
    (category : Category) {origin : String} (horigin : 0#8 ∉ origin.toList.map fun c => BitVec.ofNat 8 c.toNat)
    (hm : Points (some m) message) (hn : Points (some n) functionName) (hf : Points (some f) fileName)
    (truncated : Bool) (line : BitVec 32) :
    ∃ cause, runtimeCause kind origin (some m) truncated line.toInt (some n) (some f) = some cause ∧
      cause.kind = kind ∧ ∀ beyond now,
      (RecordFactory.runtimeRecord category origin (cause.runtime.message.pointer beyond)
          cause.runtime.truncated cause.runtime.line.toInt (cause.runtime.functionName.pointer beyond)
          (cause.runtime.fileName.pointer beyond) .urgent now).map DiagnosticRecord.content =
        some (Diagnostics.Forwarding.runtimeRecord .fault category origin m truncated line.toInt n f now) := by
  obtain ⟨o, ho, -⟩ := copy_stores (points_literal origin horigin) (.zero (originCapacity + 1)) false
  obtain ⟨m', hm', hmstored⟩ := copy_stores hm (.zero (runtimeMessageCapacity + 1)) truncated
  obtain ⟨n', hn', hnstored⟩ := copy_stores hn (.zero (functionCapacity + 1)) false
  obtain ⟨f', hf', hfstored⟩ := copy_stores hf (.zero (fileCapacity + 1)) false
  refine ⟨_, by rw [runtimeCause, ho, hm', hn', hf']; rfl, rfl, fun beyond now => ?_⟩
  have hcontent := runtimeRecord_content category horigin (hmstored.points beyond) (hnstored.points beyond)
    (hfstored.points beyond) (truncated || decide (runtimeMessageCapacity < message.length))
    (lineNumber line.toInt).toInt .urgent now
  -- the second copy of the message cuts nothing off
  have hwhole := (copied_points (hmstored.points beyond) runtimeMessageCapacity).2
  have hshort : ¬ runtimeMessageCapacity < (message.take runtimeMessageCapacity).length :=
    Nat.not_lt.mpr (List.length_take_le _ _)
  rw [decide_eq_false hshort] at hwhole
  refine hcontent.trans (congrArg some ?_)
  rw [Diagnostics.Forwarding.runtimeRecord, Diagnostics.Forwarding.runtimeRecord, hmstored.copy_eq hm,
    hnstored.copy_eq hn, hfstored.copy_eq hf, hwhole, Bool.or_false,
    ← (copied_points hm runtimeMessageCapacity).2, toInt_lineNumber, Int.max_eq_left (Int.le_max_right _ _)]

end StLib.Protections.FaultText
