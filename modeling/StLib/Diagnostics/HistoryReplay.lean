import StLib.Base.RingBuffer
import StLib.Diagnostics.HubDelivery

/-! # Replay of the history

Until a sink is installed the records are kept in the history only, a ring. The first sink
finds the last of them in the queue, as many as the ring holds and in the order of their
publication, and the next record goes behind them (`history_replay`). The queue is as long
as the ring, so a replay fits, and after a full one the next record makes room first. -/
namespace StLib.Diagnostics.HistoryReplay

open StLib.Base.RingBuffer StLib.Diagnostics.Hub StLib.Diagnostics.HubDelivery

variable {R : Type}

/-- The records published, after one more call. -/
def recorded (records : List (DiagnosticRecord R)) : HubOp R → List (DiagnosticRecord R)
  | .publish priority content => records ++ [{ seq := records.length, priority, content }]
  | _ => records

/-- The records that the calls publish, in order. -/
def publications (ops : List (HubOp R)) : List (DiagnosticRecord R) := ops.foldl recorded []

/-- The history, as a ring. -/
def ring (h : State R) : Buffer (DiagnosticRecord R) where
  slots := h.history
  next := h.historyNextIndex
  count := h.historyCount

/-- No sink is installed, and the records `records` have been published. -/
structure Sinkless (h : State R) (records : List (DiagnosticRecord R)) : Prop where
  sinkCount : h.sinkCount = 0
  pendingRecords : h.pendingRecords = []
  published : h.published = records.length
  ring : Holds historyCapacity (ring h) records

theorem publish_sinkless {h : State R} {records : List (DiagnosticRecord R)}
    (hs : Sinkless h records) (priority : DiagnosticPriority) (content : R) :
    Sinkless (publish priority content h)
      (records ++ [{ seq := records.length, priority, content }]) := by
  rw [publish_eq, if_pos hs.sinkCount, hs.published]
  refine ⟨hs.sinkCount, hs.pendingRecords, ?_, hs.ring.push _⟩
  rw [List.length_append, ← hs.published]
  rfl

/-- There is nothing to flush. -/
theorem flushPending_sinkless {h : State R} {records : List (DiagnosticRecord R)}
    (hs : Sinkless h records) (eth : Bool) (answers : Nat → Bool) (urgentOnly : Bool)
    (now : BitVec 64) : Sinkless (flushPending eth answers urgentOnly now h) records := by
  rw [flushPending, hs.pendingRecords]
  exact ⟨hs.sinkCount, rfl, hs.published, hs.ring⟩

theorem op_sinkless {h : State R} {records : List (DiagnosticRecord R)} (hs : Sinkless h records)
    (eth : Bool) (answers : Nat → Bool) {op : HubOp R} (hop : op ≠ .emplaceSink true) :
    Sinkless (op.run eth answers h) (recorded records op) := by
  cases op with
  | publish priority content => exact publish_sinkless hs priority content
  | flush now now' => exact flushPending_sinkless (flushPending_sinkless hs ..) ..
  | flushUrgent now => exact flushPending_sinkless hs ..
  | emplaceSink fits =>
    obtain rfl : fits = false := by simpa using hop
    have hroom : ¬ h.sinkCount ≥ maxSinks := by
      rw [hs.sinkCount]
      decide
    have hsame : (emplaceSink false h).2 = h := by
      rw [emplaceSink, if_neg hroom]
      rfl
    show Sinkless (emplaceSink false h).2 records
    rw [hsame]
    exact hs

theorem after_sinkless [Inhabited R] (eth : Bool) (answers : Nat → Bool) {ops : List (HubOp R)}
    (hops : ∀ op ∈ ops, op ≠ .emplaceSink true) :
    Sinkless (after eth answers ops) (publications ops) := by
  induction ops using List.reverseRecOn with
  | nil => exact ⟨rfl, rfl, rfl, holds_nil _⟩
  | append_singleton ops op ih =>
    have hone := op_sinkless (ih fun op' h => hops op' (List.mem_append_left _ h)) eth answers
      (hops op (by simp))
    rw [after_concat, publications, List.foldl_append]
    exact hone

/-- The queue that the first sink finds. -/
def replayed (records : List (DiagnosticRecord R)) : List (PendingRecord R) :=
  (records.drop (records.length - historyCapacity)).map fun record => { record := record }

theorem length_replayed (records : List (DiagnosticRecord R)) :
    (replayed records).length = min records.length historyCapacity := by
  rw [replayed, List.length_map, List.length_drop]
  omega

/-- With a sink and an empty queue the whole history is replayed. -/
theorem replayHistory_eq {h : State R} {records : List (DiagnosticRecord R)}
    (hsinks : h.sinkCount ≠ 0) (hempty : h.pendingRecords = [])
    (hr : Holds historyCapacity (ring h) records) :
    replayHistoryToPending h = { h with pendingRecords := replayed records } := by
  have hcount : h.historyCount = min records.length historyCapacity := hr.count
  unfold replayHistoryToPending
  by_cases hnone : h.historyCount = 0
  · have hnil : records = [] := by
      have hcap : 0 < historyCapacity := by decide
      exact List.length_eq_zero_iff.mp (by omega)
    rw [if_pos (.inr (.inl hnone)), hnil]
    cases h
    cases hempty
    rfl
  · have hreplays : ¬ (h.sinkCount = 0 ∨ h.historyCount = 0 ∨ h.pendingRecords.length ≠ 0) := by
      simp [hsinks, hnone, hempty]
    have hfit : h.historyCount ≤ pendingCapacity := hcount.trans_le (Nat.min_le_right ..)
    rw [if_neg hreplays]
    dsimp only
    rw [replay_eq h hempty _ _ hfit, replayed, ← hr.toList, Buffer.toList, List.map_map]
    rfl

/-- The first sink. -/
theorem emplaceSink_sinkless {h : State R} {records : List (DiagnosticRecord R)}
    (hs : Sinkless h records) :
    (emplaceSink true h).1 = .ok 0 ∧ (emplaceSink true h).2 =
      { h with sinkCount := 1, pendingRecords := replayed records } := by
  have hroom : ¬ h.sinkCount ≥ maxSinks := by
    rw [hs.sinkCount]
    decide
  have hfirst : (h.sinkCount == 0) = true := by
    rw [hs.sinkCount]
    rfl
  have hreplay := replayHistory_eq (h := { h with sinkCount := h.sinkCount + 1 })
    (Nat.succ_ne_zero _) hs.pendingRecords hs.ring
  unfold emplaceSink
  dsimp only
  rw [if_neg hroom, if_pos rfl, hfirst, if_pos rfl, hreplay, hs.sinkCount]
  exact ⟨rfl, rfl⟩

/-- A hub with sinks keeps them. -/
theorem op_sinks {eth : Bool} {answers : Nat → Bool} {h : State R} (hd : Delivering h)
    (hpos : 0 < h.sinkCount) (op : HubOp R) : 0 < (op.run eth answers h).sinkCount := by
  cases op with
  | publish priority content =>
    show 0 < (publish priority content h).sinkCount
    rw [publish_eq]
    split <;> exact hpos
  | flush now now' =>
    obtain ⟨hurgent, -, -, hcount⟩ := @flushPending_delivering R eth answers true now h hd
    obtain ⟨-, -, -, hcount'⟩ := @flushPending_delivering R eth answers false now' _ hurgent
    exact (hcount'.trans hcount).symm ▸ hpos
  | flushUrgent now =>
    obtain ⟨-, -, -, hcount⟩ := @flushPending_delivering R eth answers true now h hd
    exact hcount.symm ▸ hpos
  | emplaceSink fits =>
    have hsinks : (h.sinkCount == 0) = false := beq_eq_false_iff_ne.mpr hpos.ne'
    show 0 < (emplaceSink fits h).2.sinkCount
    unfold emplaceSink
    rw [hsinks]
    split
    next => exact hpos
    next =>
      cases fits with
      | false => exact hpos
      | true => exact Nat.succ_pos _

theorem later_sinks {eth : Bool} {answers : Nat → Bool} (later : List (HubOp R)) {h : State R}
    (hd : Delivering h) (hpos : 0 < h.sinkCount) :
    0 < (later.foldl (HubOp.run eth answers) h).sinkCount := by
  induction later generalizing h with
  | nil => exact hpos
  | cons op later ih => exact ih (op_delivering op hd).1 (op_sinks hd hpos op)

/-- **Replay**: whatever is published before, the first sink finds the last records that the
history holds, oldest first and undelivered. Every later record comes last, behind those
that still wait; only a full queue makes room for it. -/
theorem history_replay [Inhabited R] (eth : Bool) (answers : Nat → Bool) {ops : List (HubOp R)}
    (hops : ∀ op ∈ ops, op ≠ .emplaceSink true) :
    let installed := emplaceSink true (after eth answers ops)
    let n := (publications ops).length
    installed.1 = .ok 0 ∧
      installed.2.pendingRecords = ((publications ops).drop (n - historyCapacity)).map
        (fun record => { record := record, deliveredMask := 0#8 }) ∧
      (n < historyCapacity → ∀ record,
        room record installed.2.pendingRecords = installed.2.pendingRecords) ∧
      ∀ (later : List (HubOp R)) priority content,
        let h := later.foldl (HubOp.run eth answers) installed.2
        (publish priority content h).pendingRecords =
          room { seq := h.published, priority, content } h.pendingRecords ++
            [{ record := { seq := h.published, priority, content }, deliveredMask := 0#8 }] := by
  have hs := after_sinkless eth answers hops
  obtain ⟨hok, hinstalled⟩ := emplaceSink_sinkless hs
  have hdelivering := after_delivering eth answers (ops ++ [.emplaceSink true])
  rw [after_concat] at hdelivering
  change Delivering (emplaceSink true (after eth answers ops)).2 at hdelivering
  dsimp only
  refine ⟨hok, by rw [hinstalled]; rfl, fun hfew record => ?_, fun later priority content => ?_⟩
  · rw [hinstalled]
    show room record (replayed (publications ops)) = _
    rw [room, length_replayed, if_neg (by rw [Nat.min_eq_left hfew.le]; exact hfew.ne)]
  · have hpos : 0 < (emplaceSink true (after eth answers ops)).2.sinkCount := by
      rw [hinstalled]
      exact Nat.one_pos
    have hsinks := @later_sinks R eth answers later _ hdelivering hpos
    rw [publish_eq, if_neg hsinks.ne', pushPending_eq]
    rfl

/-- Three records, one of them urgent, and the first sink. -/
theorem history_replay_three :
    (emplaceSink true (after false (fun _ => true)
        [.publish .normal 5, .publish .urgent 6, .emplaceSink false, .publish .normal 7])).2.pendingRecords =
      [⟨⟨0, .normal, 5⟩, 0#8⟩, ⟨⟨1, .urgent, 6⟩, 0#8⟩, ⟨⟨2, .normal, 7⟩, 0#8⟩] :=
  (history_replay (R := Nat) false (fun _ => true) (by simp)).2.1

/-- **A full queue**: after sixteen records the next one evicts the oldest of them. -/
theorem replayed_record_evicted :
    ¬ ∀ (ops : List (HubOp Unit)), (∀ op ∈ ops, op ≠ .emplaceSink true) →
      let installed := (emplaceSink true (after false (fun _ => true) ops)).2
      (publish .normal () installed).pendingRecords =
        installed.pendingRecords ++
          [{ record := { seq := installed.published, priority := .normal, content := () } }] := by
  intro h
  have hlen := congrArg List.length
    (h (List.replicate 16 (.publish .normal ())) (by simp))
  exact absurd hlen (by decide +kernel)

end StLib.Diagnostics.HistoryReplay
