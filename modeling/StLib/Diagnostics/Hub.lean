import Mathlib.Logic.Function.Basic

/-! # The diagnostics hub

`Diagnostics::Hub`: the history ring and the pending queue of `DiagnosticsHub.cpp`, and
`emplace_sink`. The queue is the list of its first `pending_count` entries. A sink is its
index in `sinks`; what it answers to its `asked`-th call is arbitrary. `eth` says whether
`STLIB_ETH` is defined, a reading of the scheduler's clock is an argument. -/
namespace StLib.Diagnostics.Hub

/-! ## Records -/

inductive DiagnosticPriority
  | normal
  | urgent
deriving DecidableEq, Inhabited

/-- A published record; `seq` is the number of earlier publications, and `content` what
only the sinks read. -/
structure DiagnosticRecord (R : Type) where
  seq : Nat
  priority : DiagnosticPriority
  content : R
deriving Inhabited

structure PendingRecord (R : Type) where
  record : DiagnosticRecord R
  deliveredMask : BitVec 8 := 0#8

/-- Which record it is. -/
def PendingRecord.seq {R : Type} (p : PendingRecord R) : Nat := p.record.seq

inductive RegistrationError
  | capacityExceeded
  | storageTooSmall
deriving DecidableEq

def maxSinks : Nat := 4

def historyCapacity : Nat := 16

def pendingCapacity : Nat := 16

/-! ## State -/

/-- The statics, and what the runs observe: how many records have been published, how often
a sink was asked, and which sink has accepted which record. -/
structure State (R : Type) where
  sinkCount : Nat := 0
  history : Nat → DiagnosticRecord R
  historyCount : Nat := 0
  historyNextIndex : Nat := 0
  pendingRecords : List (PendingRecord R) := []
  lastUrgentFlushUs : BitVec 64 := 0#64
  lastNormalFlushUs : BitVec 64 := 0#64
  published : Nat := 0
  asked : Nat := 0
  accepted : List (Nat × Nat) := []

def initial (R : Type) [Inhabited R] : State R where
  history _ := default

variable {R : Type}

/-! ## Queues -/

/-- The only call is that of `publish`, which it counts. -/
def pushHistory (record : DiagnosticRecord R) (h : State R) : State R :=
  { h with
    published := h.published + 1
    history := Function.update h.history h.historyNextIndex record
    historyNextIndex := (h.historyNextIndex + 1) % historyCapacity
    historyCount := if h.historyCount < historyCapacity then h.historyCount + 1 else h.historyCount }

/-- The length of the queue when there is none. -/
def findOldestNormalPending (records : List (PendingRecord R)) : Nat :=
  records.findIdx fun p => p.record.priority = .normal

/-- Nothing is removed beyond the end of the queue. -/
def removePending (index : Nat) (records : List (PendingRecord R)) : List (PendingRecord R) :=
  records.eraseIdx index

/-- The record that makes room for `record`. -/
def evictedIndex (record : DiagnosticRecord R) (records : List (PendingRecord R)) : Nat :=
  if record.priority = .urgent then
    let normalIndex := findOldestNormalPending records
    if normalIndex = records.length then 0 else normalIndex
  else 0

def pushPending (record : DiagnosticRecord R) (h : State R) : State R :=
  let records :=
    if h.pendingRecords.length = pendingCapacity then
      removePending (evictedIndex record h.pendingRecords) h.pendingRecords
    else h.pendingRecords
  { h with pendingRecords := records ++ [{ record }] }

def replayHistoryToPending (h : State R) : State R :=
  if h.sinkCount = 0 ∨ h.historyCount = 0 ∨ h.pendingRecords.length ≠ 0 then h
  else
    let oldestIndex := if h.historyCount = historyCapacity then h.historyNextIndex else 0
    (List.range h.historyCount).foldl
      (fun h' replayIndex => pushPending (h.history ((oldestIndex + replayIndex) % historyCapacity)) h') h

/-! ## Sinks and publications -/

/-- `fits` says whether the sink's type has the size and the alignment of the storage. -/
def emplaceSink (fits : Bool) (h : State R) : Except RegistrationError Nat × State R :=
  let hadNoSinks := h.sinkCount == 0
  if h.sinkCount ≥ maxSinks then (.error .capacityExceeded, h)
  else if fits then
    let h' : State R := { h with sinkCount := h.sinkCount + 1 }
    (.ok h.sinkCount, if hadNoSinks then replayHistoryToPending h' else h')
  else (.error .storageTooSmall, h)

def publish (priority : DiagnosticPriority) (content : R) (h : State R) : State R :=
  let record : DiagnosticRecord R := { seq := h.published, priority, content }
  let h' := pushHistory record h
  if h'.sinkCount = 0 then h' else pushPending record h'

/-! ## Flushing -/

def lastFlush (urgentOnly : Bool) (h : State R) : BitVec 64 :=
  if urgentOnly then h.lastUrgentFlushUs else h.lastNormalFlushUs

/-- `last_flush = now`, with `STLIB_ETH`. -/
def setLastFlush (eth urgentOnly : Bool) (now : BitVec 64) (h : State R) : State R :=
  { h with
    lastUrgentFlushUs := if eth && urgentOnly then now else h.lastUrgentFlushUs
    lastNormalFlushUs := if eth && !urgentOnly then now else h.lastNormalFlushUs }

def targetMask (sinkCount : Nat) : BitVec 8 :=
  if sinkCount = 0 then 0#8 else (1#8 <<< sinkCount) - 1#8

def sinkMask (sink : Nat) : BitVec 8 := 1#8 <<< sink

section Flush

variable (eth : Bool) (answers : Nat → Bool) (urgentOnly : Bool) (now : BitVec 64)

/-- One turn of the loop over the sinks. -/
def askSink (s : PendingRecord R × State R) (sink : Nat) : PendingRecord R × State R :=
  let (p, h) := s
  if p.deliveredMask &&& sinkMask sink ≠ 0#8 then (p, h)
  else
    let h' := { h with asked := h.asked + 1 }
    if answers h.asked then
      ({ p with deliveredMask := p.deliveredMask ||| sinkMask sink },
        setLastFlush eth urgentOnly now { h' with accepted := h'.accepted ++ [(p.seq, sink)] })
    else (p, h')

def askSinks (p : PendingRecord R) (h : State R) : PendingRecord R × State R :=
  (List.range h.sinkCount).foldl (askSink eth answers urgentOnly now) (p, h)

/-- The records that the loop passes over. -/
def skips (p : PendingRecord R) (h : State R) : Bool :=
  (urgentOnly && p.record.priority != .urgent) ||
    (eth && lastFlush urgentOnly h != 0#64 && decide (now - lastFlush urgentOnly h < 100000#64))

/-- The loop over the queue: the records that stay. -/
def flushRecords : List (PendingRecord R) → State R → List (PendingRecord R) × State R
  | [], h => ([], h)
  | p :: rest, h =>
    if skips eth urgentOnly now p h then
      let (kept, h) := flushRecords rest h
      (p :: kept, h)
    else
      let (p, h) := askSinks eth answers urgentOnly now p h
      let (kept, h') := flushRecords rest h
      (if p.deliveredMask = targetMask h.sinkCount then kept else p :: kept, h')

def flushPending (h : State R) : State R :=
  let (kept, h) := flushRecords eth answers urgentOnly now h.pendingRecords h
  { h with pendingRecords := kept }

end Flush

def flushUrgent (eth : Bool) (answers : Nat → Bool) (now : BitVec 64) (h : State R) : State R :=
  flushPending eth answers true now h

def flush (eth : Bool) (answers : Nat → Bool) (now now' : BitVec 64) (h : State R) : State R :=
  flushPending eth answers false now' (flushUrgent eth answers now h)

/-! ## Runs -/

inductive HubOp (R : Type)
  | publish (priority : DiagnosticPriority) (content : R)
  | flush (now now' : BitVec 64)
  | flushUrgent (now : BitVec 64)
  | emplaceSink (fits : Bool)

def HubOp.run (eth : Bool) (answers : Nat → Bool) (h : State R) : HubOp R → State R
  | .publish priority content => Hub.publish priority content h
  | .flush now now' => Hub.flush eth answers now now' h
  | .flushUrgent now => Hub.flushUrgent eth answers now h
  | .emplaceSink fits => (Hub.emplaceSink fits h).2

/-- The state after the calls `ops`. -/
def after [Inhabited R] (eth : Bool) (answers : Nat → Bool) (ops : List (HubOp R)) : State R :=
  ops.foldl (HubOp.run eth answers) (initial R)

end StLib.Diagnostics.Hub
