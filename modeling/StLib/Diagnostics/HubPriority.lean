import StLib.Diagnostics.HubDelivery

/-! # Urgent records in a full queue

An urgent publication evicts the oldest normal record; a normal one evicts the oldest
record, urgent or not. -/
namespace StLib.Diagnostics.HubPriority

open Hub
open HubDelivery

variable {R : Type}

/-- An urgent record that some sink has not accepted leaves a queue with a normal record. -/
def Displaced (h h' : State R) : Prop :=
  ∃ p ∈ h.pendingRecords, p.record.priority = .urgent ∧
    p.seq ∉ h'.pendingRecords.map PendingRecord.seq ∧
    (∃ s < h'.sinkCount, (p.seq, s) ∉ h'.accepted) ∧
    ∃ q ∈ h.pendingRecords, q.record.priority = .normal

/-- A normal record is not published into a full queue that has an urgent record in front
and a normal one behind it. -/
def Guarded (h : State R) (op : HubOp R) : Prop :=
  ∀ content, op = .publish .normal content → h.pendingRecords.length = pendingCapacity →
    ∀ p rest, h.pendingRecords = p :: rest → p.record.priority = .urgent →
      ∀ q ∈ rest, q.record.priority = .urgent

variable {eth : Bool} {answers : Nat → Bool} {h : State R}

/-- What leaves a queue that makes room is the record at the evicted index. -/
theorem evicted_of_left {record : DiagnosticRecord R} {records : List (PendingRecord R)}
    {p : PendingRecord R} (hp : p ∈ records)
    (hout : p.seq ∉ (room record records).map PendingRecord.seq) :
    records.length = pendingCapacity ∧ records[evictedIndex record records]? = some p := by
  obtain ⟨i, hi⟩ := List.mem_iff_getElem?.mp hp
  unfold room at hout
  by_cases hfull : records.length = pendingCapacity
  · rw [if_pos hfull] at hout
    by_cases he : i = evictedIndex record records
    · rw [← he]
      exact ⟨hfull, hi⟩
    · exact absurd (List.mem_map_of_mem (List.mem_eraseIdx_iff_getElem?.mpr ⟨i, he, hi⟩)) hout
  · rw [if_neg hfull] at hout
    exact absurd (List.mem_map_of_mem hp) hout

/-- An urgent record evicts a normal one when there is one. -/
theorem evicted_normal {record : DiagnosticRecord R} {records : List (PendingRecord R)}
    (hurgent : record.priority = .urgent) (hq : ∃ q ∈ records, q.record.priority = .normal) :
    ∃ q, records[evictedIndex record records]? = some q ∧ q.record.priority = .normal := by
  obtain ⟨q, hqm, hqn⟩ := hq
  have hlt : findOldestNormalPending records < records.length :=
    List.findIdx_lt_length_of_exists ⟨q, hqm, decide_eq_true hqn⟩
  have hidx : evictedIndex record records = findOldestNormalPending records := by
    unfold evictedIndex
    rw [if_pos hurgent]
    exact if_neg (Nat.ne_of_lt hlt)
  rw [hidx]
  exact ⟨_, List.getElem?_eq_getElem hlt, of_decide_eq_true (List.findIdx_getElem (w := hlt))⟩

theorem evictedIndex_normal {record : DiagnosticRecord R} (records : List (PendingRecord R))
    (h : record.priority = .normal) : evictedIndex record records = 0 := by
  unfold evictedIndex
  rw [h]
  rfl

/-- A publication displaces an urgent record when it is not guarded. -/
theorem publish_displaced (hd : Delivering h) (priority : DiagnosticPriority) (content : R) :
    Displaced h (publish priority content h) ↔ ¬ Guarded h (.publish priority content) := by
  rw [publish_eq]
  constructor
  · rintro ⟨p, hp, hurgent, hout, -, q, hq, hnormal⟩ hguard
    by_cases hnone : h.sinkCount = 0
    · rw [if_pos hnone] at hout
      exact hout (List.mem_map_of_mem hp)
    · rw [if_neg hnone, pushPending_eq] at hout
      have hleft : p.seq ∉ (room ⟨h.published, priority, content⟩ h.pendingRecords).map
          PendingRecord.seq := by
        intro hm
        refine hout ?_
        show p.seq ∈ (room _ h.pendingRecords ++ [_]).map PendingRecord.seq
        rw [List.map_append]
        exact List.mem_append_left _ hm
      obtain ⟨hfull, hat⟩ := evicted_of_left hp hleft
      cases priority with
      | urgent =>
        obtain ⟨q', hq', hn'⟩ := @evicted_normal R ⟨h.published, .urgent, content⟩ _ rfl
          ⟨q, hq, hnormal⟩
        obtain rfl := Option.some.inj (hat.symm.trans hq')
        cases hurgent.symm.trans hn'
      | normal =>
        rw [evictedIndex_normal _ rfl] at hat
        cases hl : h.pendingRecords with
        | nil =>
          rw [hl] at hp
          cases hp
        | cons first rest =>
          rw [hl] at hat hq
          obtain rfl : first = p := Option.some.inj hat
          have hall := hguard content rfl hfull first rest hl hurgent
          rcases List.mem_cons.mp hq with rfl | hq
          · cases hurgent.symm.trans hnormal
          · cases (hall q hq).symm.trans hnormal
  · intro hguard
    unfold Guarded at hguard
    push Not at hguard
    obtain ⟨content', hop, hfull, p, rest, hl, hurgent, q, hq, hne⟩ := hguard
    obtain ⟨rfl, rfl⟩ := HubOp.publish.inj hop
    have hqueued := hd.queued
    rw [hl] at hqueued
    have hpm : p ∈ h.pendingRecords := hl ▸ List.mem_cons_self
    obtain ⟨s, hs, hm⟩ := hd.queued.wanted p hpm
    rw [if_neg (Nat.ne_of_gt (Nat.zero_lt_of_lt hs)), pushPending_eq]
    refine ⟨p, hpm, hurgent, ?_, ⟨s, hs, hm⟩, q, hl ▸ List.mem_cons_of_mem _ hq, ?_⟩
    · -- the front of the queue makes room
      show p.seq ∉ (room _ h.pendingRecords ++ [_]).map PendingRecord.seq
      rw [room, if_pos hfull, evictedIndex_normal _ rfl, hl, List.map_append, List.mem_append]
      rintro (hm | hm)
      · exact hqueued.other hm
      · exact Nat.ne_of_lt (hd.queued.published p hpm) (List.mem_singleton.mp hm)
    · cases hprio : q.record.priority with
      | normal => rfl
      | urgent => exact absurd hprio hne

theorem op_displaced (hd : Delivering h) (op : HubOp R) :
    Displaced h (op.run eth answers h) ↔ ¬ Guarded h op := by
  have hleaves : Leaves op h (op.run eth answers h) := (op_delivering op hd).2
  cases op with
  | publish priority content => exact publish_displaced hd priority content
  | flush | flushUrgent | emplaceSink =>
    refine iff_of_false ?_ (fun hguard => hguard fun content hop => nomatch hop)
    rintro ⟨p, hp, -, hout, ⟨s, hs, hm⟩, -⟩
    rcases hleaves p.seq (List.mem_map_of_mem hp) hout with hall | ⟨-, _, _, hop⟩
    · exact hm (hall s hs)
    · cases hop

/-! ## Main result -/

/-- **Urgent records**: in a run no urgent record is displaced by a normal one exactly when
every publication of the run is guarded. -/
theorem urgent_kept [Inhabited R] (eth : Bool) (answers : Nat → Bool) (ops : List (HubOp R)) :
    (∀ pre op post, ops = pre ++ op :: post →
      ¬ Displaced (after eth answers pre) (after eth answers (pre ++ [op]))) ↔
    ∀ pre op post, ops = pre ++ op :: post → Guarded (after eth answers pre) op := by
  refine forall_congr' fun pre => forall_congr' fun op => forall_congr' fun post =>
    forall_congr' fun _ => ?_
  rw [after_concat, op_displaced (after_delivering eth answers pre), not_not]

/-- An urgent record and fifteen normal ones, for a sink that rejects them. -/
def full : List (HubOp Unit) :=
  .emplaceSink true :: .publish .urgent () :: List.replicate 15 (.publish .normal ())

/-- The next normal record displaces the urgent one. -/
theorem urgent_displaced : ¬ ∀ (eth : Bool) (answers : Nat → Bool) (ops : List (HubOp Unit)),
    ∀ pre op post, ops = pre ++ op :: post →
      ¬ Displaced (after eth answers pre) (after eth answers (pre ++ [op])) := by
  intro hall
  refine hall false (fun _ => false) (full ++ [.publish .normal ()]) full _ [] rfl ?_
  rw [after_concat, op_displaced (after_delivering _ _ _)]
  intro hguard
  have hlast := hguard () rfl (by decide +kernel) _ _ rfl rfl ⟨⟨1, .normal, ()⟩, 0#8⟩ List.mem_cons_self
  cases hlast

end StLib.Diagnostics.HubPriority
