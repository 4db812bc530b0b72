import Mathlib.Data.List.Induction
import Mathlib.Data.List.Nodup
import StLib.Diagnostics.Hub

/-! # Delivery of the hub's records

Whatever the sinks answer, each of them accepts a record at most once, and a record leaves
the queue when all installed sinks have accepted it or when a publication finds it full. -/
namespace StLib.Diagnostics.HubDelivery

open Hub

variable {R : Type}

/-! ## Masks -/

theorem sinkMask_getLsbD {s sink : Nat} (hs : s < 8) (hsink : sink < 8) :
    (sinkMask sink).getLsbD s = decide (s = sink) := by
  have hall : ∀ s < 8, ∀ sink < 8, (sinkMask sink).getLsbD s = decide (s = sink) := by decide
  exact hall s hs sink hsink

theorem and_sinkMask {m : BitVec 8} {sink : Nat} (hsink : sink < 8) :
    m &&& sinkMask sink ≠ 0#8 ↔ m.getLsbD sink = true := by
  have hbit : (m &&& sinkMask sink).getLsbD sink = m.getLsbD sink := by
    rw [BitVec.getLsbD_and, sinkMask_getLsbD hsink hsink, decide_eq_true rfl, Bool.and_true]
  constructor
  · intro hne
    by_contra hclear
    refine hne (BitVec.eq_of_getLsbD_eq fun s hs => ?_)
    rw [BitVec.getLsbD_and, sinkMask_getLsbD hs hsink, BitVec.getLsbD_zero]
    by_cases he : s = sink
    · rw [he, decide_eq_true rfl, Bool.and_true]
      exact Bool.not_eq_true _ ▸ hclear
    · rw [decide_eq_false he, Bool.and_false]
  · intro hset hzero
    rw [hzero, BitVec.getLsbD_zero, hset] at hbit
    cases hbit

theorem targetMask_getLsbD {s n : Nat} (hs : s < 8) (hn : n ≤ maxSinks) :
    (targetMask n).getLsbD s = decide (s < n) := by
  have hall : ∀ s < 8, ∀ n < 5, (targetMask n).getLsbD s = decide (s < n) := by decide
  exact hall s hs n (Nat.lt_succ_of_le hn)

/-! ## Invariant -/

/-- The mask of `p` says which sinks have accepted it. -/
def Tracks (h : State R) (p : PendingRecord R) : Prop :=
  ∀ s < 8, p.deliveredMask.getLsbD s = true ↔ (p.seq, s) ∈ h.accepted

/-- What the sinks have accepted. -/
structure Sound (h : State R) : Prop where
  sinks : h.sinkCount ≤ maxSinks
  once : h.accepted.Nodup
  known : ∀ a ∈ h.accepted, a.1 < h.published ∧ a.2 < h.sinkCount

/-- A record that some sink has not accepted. -/
def Open (h : State R) (p : PendingRecord R) : Prop :=
  ∃ s < h.sinkCount, (p.seq, s) ∉ h.accepted

/-- The records of the queue: in publication order, each tracked and wanted by some sink. -/
structure Queued (h : State R) (records : List (PendingRecord R)) : Prop where
  ordered : (records.map PendingRecord.seq).Pairwise (· < ·)
  published : ∀ p ∈ records, p.seq < h.published
  tracked : ∀ p ∈ records, Tracks h p
  wanted : ∀ p ∈ records, Open h p

/-- The ring holds the last records published. -/
structure Remembers (h : State R) : Prop where
  count : h.historyCount = min h.published historyCapacity
  next : h.historyNextIndex = h.published % historyCapacity
  history : ∀ k < h.published, h.published ≤ k + historyCapacity →
    (h.history (k % historyCapacity)).seq = k

structure Delivering (h : State R) : Prop where
  sound : Sound h
  queued : Queued h h.pendingRecords
  bounded : h.pendingRecords.length ≤ pendingCapacity
  remembers : Remembers h

/-! ## Calls of the sinks -/

/-- The sinks are asked about records among `ids`, and nothing else changes. -/
structure Asks (ids : Nat → Prop) (h h' : State R) : Prop where
  sinkCount : h'.sinkCount = h.sinkCount
  history : h'.history = h.history
  historyCount : h'.historyCount = h.historyCount
  historyNextIndex : h'.historyNextIndex = h.historyNextIndex
  pendingRecords : h'.pendingRecords = h.pendingRecords
  published : h'.published = h.published
  kept : ∀ a ∈ h.accepted, a ∈ h'.accepted
  only : ∀ a ∈ h'.accepted, a ∈ h.accepted ∨ ids a.1

theorem Asks.refl (ids : Nat → Prop) (h : State R) : Asks ids h h :=
  ⟨rfl, rfl, rfl, rfl, rfl, rfl, fun _ ha => ha, fun _ ha => .inl ha⟩

theorem Asks.trans {ids ids' : Nat → Prop} {h h' h'' : State R} (a : Asks ids h h')
    (b : Asks ids' h' h'') : Asks (fun i => ids i ∨ ids' i) h h'' where
  sinkCount := b.sinkCount.trans a.sinkCount
  history := b.history.trans a.history
  historyCount := b.historyCount.trans a.historyCount
  historyNextIndex := b.historyNextIndex.trans a.historyNextIndex
  pendingRecords := b.pendingRecords.trans a.pendingRecords
  published := b.published.trans a.published
  kept x hx := b.kept x (a.kept x hx)
  only x hx := by
    rcases b.only x hx with hx | hx
    · exact (a.only x hx).imp_right .inl
    · exact .inr (.inr hx)

theorem Asks.mono {ids ids' : Nat → Prop} {h h' : State R} (a : Asks ids h h')
    (hsub : ∀ i, ids i → ids' i) : Asks ids' h h' :=
  { a with only := fun x hx => (a.only x hx).imp_right (hsub x.1) }

/-- A record that the sinks are not asked about stays as it is. -/
theorem Asks.mem_iff {ids : Nat → Prop} {h h' : State R} (a : Asks ids h h') {i s : Nat}
    (hi : ¬ ids i) : (i, s) ∈ h'.accepted ↔ (i, s) ∈ h.accepted :=
  ⟨fun hm => (a.only _ hm).resolve_right hi, a.kept _⟩

theorem Asks.tracks {ids : Nat → Prop} {h h' : State R} (a : Asks ids h h') {p : PendingRecord R}
    (hp : ¬ ids p.seq) (ht : Tracks h p) : Tracks h' p :=
  fun s hs => (ht s hs).trans (a.mem_iff hp).symm

theorem Asks.open {ids : Nat → Prop} {h h' : State R} (a : Asks ids h h') {p : PendingRecord R}
    (hp : ¬ ids p.seq) (ho : Open h p) : Open h' p := by
  obtain ⟨s, hs, hm⟩ := ho
  exact ⟨s, by rw [a.sinkCount]; exact hs, fun hm' => hm ((a.mem_iff hp).mp hm')⟩

section Flush

variable {eth : Bool} {answers : Nat → Bool} {urgentOnly : Bool} {now : BitVec 64}

/-- What asking the sinks about `p` keeps. -/
structure Asked (p : PendingRecord R) (h : State R) (s : PendingRecord R × State R) : Prop where
  record : s.1.record = p.record
  sound : Sound s.2
  tracks : Tracks s.2 s.1
  asks : Asks (fun i => i = p.seq) h s.2

theorem asked_refl {p : PendingRecord R} {h : State R} (hs : Sound h) (ht : Tracks h p) :
    Asked p h (p, h) :=
  ⟨rfl, hs, ht, .refl _ _⟩

theorem askSink_asked {p : PendingRecord R} {h : State R} {s : PendingRecord R × State R} {sink : Nat}
    (hp : p.seq < h.published) (hsink : sink < h.sinkCount) (ha : Asked p h s) :
    Asked p h (askSink eth answers urgentOnly now s sink) := by
  obtain ⟨q, g⟩ := s
  have hseq : q.seq = p.seq := congrArg DiagnosticRecord.seq ha.record
  have hlt : sink < g.sinkCount := by
    rw [ha.asks.sinkCount]
    exact hsink
  have h8 : sink < 8 := Nat.lt_of_lt_of_le hlt (Nat.le_trans ha.sound.sinks (by decide))
  unfold askSink
  by_cases hdone : q.deliveredMask &&& sinkMask sink ≠ 0#8
  · simp only [if_pos hdone]
    exact ha
  · simp only [if_neg hdone]
    cases answers g.asked with
    | false => exact ⟨ha.record, ⟨ha.sound.sinks, ha.sound.once, ha.sound.known⟩, ha.tracks, { ha.asks with }⟩
    | true =>
      have hfresh : (q.seq, sink) ∉ g.accepted := by
        rw [and_sinkMask h8, ha.tracks sink h8] at hdone
        exact hdone
      refine ⟨ha.record, ⟨ha.sound.sinks, ?_, ?_⟩, ?_, { ha.asks with kept := ?_, only := ?_ }⟩
      · exact List.nodup_append.mpr ⟨ha.sound.once, List.pairwise_singleton ..,
          fun a hm b hb hab => hfresh (by rw [← List.mem_singleton.mp hb, ← hab]; exact hm)⟩
      · refine List.forall_mem_append.mpr ⟨ha.sound.known, List.forall_mem_singleton.mpr ⟨?_, hlt⟩⟩
        show q.seq < g.published
        rw [hseq, ha.asks.published]
        exact hp
      · intro s hs8
        show (q.deliveredMask ||| sinkMask sink).getLsbD s = true ↔
          (q.seq, s) ∈ g.accepted ++ [(q.seq, sink)]
        rw [BitVec.getLsbD_or, sinkMask_getLsbD hs8 h8, Bool.or_eq_true, ha.tracks s hs8,
          List.mem_append, List.mem_singleton, decide_eq_true_iff, Prod.mk.injEq,
          and_iff_right rfl]
      · exact fun a hm => List.mem_append_left _ (ha.asks.kept a hm)
      · intro a hm
        rcases List.mem_append.mp hm with hm | hm
        · exact ha.asks.only a hm
        · rw [List.mem_singleton.mp hm]
          exact .inr hseq

theorem askSinks_asked {p : PendingRecord R} {h : State R} (hs : Sound h) (hp : p.seq < h.published)
    (ht : Tracks h p) : Asked p h (askSinks eth answers urgentOnly now p h) := by
  unfold askSinks
  have hall : ∀ sinks : List Nat, (∀ sink ∈ sinks, sink < h.sinkCount) → ∀ s, Asked p h s →
      Asked p h (sinks.foldl (askSink eth answers urgentOnly now) s) := by
    intro sinks
    induction sinks with
    | nil => exact fun _ _ ha => ha
    | cons sink sinks ih =>
      intro hlt s ha
      obtain ⟨hfirst, hrest⟩ := List.forall_mem_cons.mp hlt
      exact ih hrest _ (askSink_asked hp hfirst ha)
  exact hall _ (fun sink hm => List.mem_range.mp hm) _ (asked_refl hs ht)

/-! ## The loop over the queue -/

/-- The mask is full when no sink is missing. -/
theorem mask_eq_targetMask {h : State R} {p : PendingRecord R} (hs : Sound h) (ht : Tracks h p) :
    p.deliveredMask = targetMask h.sinkCount ↔ ¬ Open h p := by
  constructor
  · rintro hmask ⟨s, hlt, hm⟩
    have h8 : s < 8 := Nat.lt_of_lt_of_le hlt (Nat.le_trans hs.sinks (by decide))
    refine hm ((ht s h8).mp ?_)
    rw [hmask, targetMask_getLsbD h8 hs.sinks]
    exact decide_eq_true hlt
  · intro hclosed
    refine BitVec.eq_of_getLsbD_eq fun s hs8 => Bool.eq_iff_iff.mpr ?_
    rw [ht s hs8, targetMask_getLsbD hs8 hs.sinks, decide_eq_true_iff]
    exact ⟨fun hm => (hs.known _ hm).2, fun hlt => by_contra fun hm => hclosed ⟨s, hlt, hm⟩⟩

/-- What the loop over `records` leaves. -/
structure Flushed (records : List (PendingRecord R)) (h : State R)
    (r : List (PendingRecord R) × State R) : Prop where
  sound : Sound r.2
  queued : Queued r.2 r.1
  asks : Asks (fun i => i ∈ records.map PendingRecord.seq) h r.2
  kept : (r.1.map PendingRecord.seq).Sublist (records.map PendingRecord.seq)
  delivered : ∀ i ∈ records.map PendingRecord.seq, i ∉ r.1.map PendingRecord.seq →
    ∀ s < h.sinkCount, (i, s) ∈ r.2.accepted

theorem Queued.cons {h : State R} {p : PendingRecord R} {rest : List (PendingRecord R)}
    (hq : Queued h rest) (hlt : ∀ q ∈ rest, p.seq < q.seq) (hp : p.seq < h.published)
    (ht : Tracks h p) (ho : Open h p) : Queued h (p :: rest) where
  ordered := List.pairwise_cons.mpr ⟨List.forall_mem_map.mpr hlt, hq.ordered⟩
  published := List.forall_mem_cons.mpr ⟨hp, hq.published⟩
  tracked := List.forall_mem_cons.mpr ⟨ht, hq.tracked⟩
  wanted := List.forall_mem_cons.mpr ⟨ho, hq.wanted⟩

theorem Queued.tail {h : State R} {p : PendingRecord R} {rest : List (PendingRecord R)}
    (hq : Queued h (p :: rest)) : Queued h rest :=
  ⟨(List.pairwise_cons.mp hq.ordered).2, (List.forall_mem_cons.mp hq.published).2,
    (List.forall_mem_cons.mp hq.tracked).2, (List.forall_mem_cons.mp hq.wanted).2⟩

theorem Queued.asks {ids : Nat → Prop} {h h' : State R} {records : List (PendingRecord R)}
    (hq : Queued h records) (ha : Asks ids h h') (hne : ∀ p ∈ records, ¬ ids p.seq) :
    Queued h' records where
  ordered := hq.ordered
  published p hp := by
    rw [ha.published]
    exact hq.published p hp
  tracked p hp := ha.tracks (hne p hp) (hq.tracked p hp)
  wanted p hp := ha.open (hne p hp) (hq.wanted p hp)

section Record

variable {p : PendingRecord R} {rest : List (PendingRecord R)} {h : State R}
  {s : PendingRecord R × State R} {r : List (PendingRecord R) × State R}

theorem Queued.after (hq : Queued h (p :: rest)) : ∀ i ∈ rest.map PendingRecord.seq, p.seq < i :=
  (List.pairwise_cons.mp hq.ordered).1

theorem Queued.other (hq : Queued h (p :: rest)) : p.seq ∉ rest.map PendingRecord.seq :=
  fun hm => Nat.lt_irrefl _ (hq.after _ hm)

theorem Asked.queued (ha : Asked p h s) (hq : Queued h (p :: rest)) : Queued s.2 rest :=
  hq.tail.asks ha.asks fun _ hqm he => Nat.ne_of_gt (hq.after _ (List.mem_map_of_mem hqm)) he

theorem Flushed.asks_cons (ha : Asked p h s) (hf : Flushed rest s.2 r) :
    Asks (fun i => i ∈ (p :: rest).map PendingRecord.seq) h r.2 := by
  refine (ha.asks.trans hf.asks).mono ?_
  rintro i (rfl | hi)
  · exact List.mem_cons_self
  · exact List.mem_cons_of_mem _ hi

/-- The record stays. -/
theorem Flushed.keep (hq : Queued h (p :: rest)) (ha : Asked p h s) (ho : Open s.2 s.1)
    (hf : Flushed rest s.2 r) : Flushed (p :: rest) h (s.1 :: r.1, r.2) := by
  have hseq : s.1.seq = p.seq := congrArg DiagnosticRecord.seq ha.record
  have hother : s.1.seq ∉ rest.map PendingRecord.seq := hseq ▸ hq.other
  have hasks := hf.asks_cons ha
  refine ⟨hf.sound, hf.queued.cons ?_ ?_ (hf.asks.tracks hother ha.tracks) (hf.asks.open hother ho),
    hasks, ?_, fun i hi hout => ?_⟩
  · intro q hqm
    rw [hseq]
    exact hq.after _ (hf.kept.subset (List.mem_map_of_mem hqm))
  · rw [hseq, hf.asks.published, ha.asks.published]
    exact (List.forall_mem_cons.mp hq.published).1
  · rw [List.map_cons, List.map_cons, hseq]
    exact hf.kept.cons_cons _
  · rcases List.mem_cons.mp hi with rfl | hi
    · exact absurd (hseq ▸ List.mem_cons_self) hout
    · intro sink hlt
      exact hf.delivered i hi (fun hm => hout (List.mem_cons_of_mem _ hm)) sink
        (ha.asks.sinkCount ▸ hlt)

/-- The record leaves. -/
theorem Flushed.drop (ha : Asked p h s) (hclosed : ¬ Open s.2 s.1) (hf : Flushed rest s.2 r) :
    Flushed (p :: rest) h r := by
  have hseq : s.1.seq = p.seq := congrArg DiagnosticRecord.seq ha.record
  refine ⟨hf.sound, hf.queued, hf.asks_cons ha, hf.kept.cons _, fun i hi hout sink hlt => ?_⟩
  have hlt' : sink < s.2.sinkCount := ha.asks.sinkCount ▸ hlt
  rcases List.mem_cons.mp hi with rfl | hi
  · refine hf.asks.kept _ (by_contra fun hm => hclosed ⟨sink, hlt', ?_⟩)
    rw [hseq]
    exact hm
  · exact hf.delivered i hi hout sink hlt'

end Record

theorem flushRecords_flushed {records : List (PendingRecord R)} {h : State R} (hs : Sound h)
    (hq : Queued h records) :
    Flushed records h (flushRecords eth answers urgentOnly now records h) := by
  induction records generalizing h with
  | nil => exact ⟨hs, hq, .refl _ _, .refl _, nofun⟩
  | cons p rest ih =>
    have hp := (List.forall_mem_cons.mp hq.published).1
    have ht := (List.forall_mem_cons.mp hq.tracked).1
    unfold flushRecords
    cases hskip : skips eth urgentOnly now p h with
    | true =>
      simp only [if_true]
      exact (ih hs hq.tail).keep hq (asked_refl hs ht) (List.forall_mem_cons.mp hq.wanted).1
    | false =>
      simp only [Bool.false_eq_true, if_false]
      have ha : Asked p h (askSinks eth answers urgentOnly now p h) := askSinks_asked hs hp ht
      have hf := ih ha.sound (ha.queued hq)
      have hmask := mask_eq_targetMask ha.sound ha.tracks
      by_cases hdone : (askSinks eth answers urgentOnly now p h).1.deliveredMask =
          targetMask (askSinks eth answers urgentOnly now p h).2.sinkCount
      · rw [if_pos hdone]
        exact hf.drop ha (hmask.mp hdone)
      · rw [if_neg hdone]
        exact hf.keep hq ha (by_contra fun hclosed => hdone (hmask.mpr hclosed))

/-- What leaves the queue between two states has been accepted by every installed sink. -/
def Delivered (h h' : State R) : Prop :=
  ∀ i ∈ h.pendingRecords.map PendingRecord.seq, i ∉ h'.pendingRecords.map PendingRecord.seq →
    ∀ s < h'.sinkCount, (i, s) ∈ h'.accepted

theorem flushPending_delivering {h : State R} (hd : Delivering h) :
    Delivering (flushPending eth answers urgentOnly now h) ∧
      Delivered h (flushPending eth answers urgentOnly now h) ∧
      (∀ a ∈ h.accepted, a ∈ (flushPending eth answers urgentOnly now h).accepted) ∧
      (flushPending eth answers urgentOnly now h).sinkCount = h.sinkCount := by
  have hf : Flushed h.pendingRecords h (flushRecords eth answers urgentOnly now h.pendingRecords h) :=
    flushRecords_flushed hd.sound hd.queued
  refine ⟨⟨⟨hf.sound.sinks, hf.sound.once, hf.sound.known⟩, ⟨hf.queued.ordered, hf.queued.published,
    hf.queued.tracked, hf.queued.wanted⟩, ?_, ?_, ?_, ?_⟩, ?_, hf.asks.kept, hf.asks.sinkCount⟩
  · have hlen := hf.kept.length_le
    rw [List.length_map, List.length_map] at hlen
    exact Nat.le_trans hlen hd.bounded
  · exact (hf.asks.historyCount.trans hd.remembers.count).trans (by rw [← hf.asks.published]; rfl)
  · exact (hf.asks.historyNextIndex.trans hd.remembers.next).trans (by rw [← hf.asks.published]; rfl)
  · intro k hk hk'
    change k < (flushRecords eth answers urgentOnly now h.pendingRecords h).2.published at hk
    change (flushRecords eth answers urgentOnly now h.pendingRecords h).2.published ≤ _ at hk'
    rw [hf.asks.published] at hk hk'
    exact (congrArg DiagnosticRecord.seq (congrFun hf.asks.history _)).trans
      (hd.remembers.history k hk hk')
  · intro i hi hout s hs
    exact hf.delivered i hi hout s (hf.asks.sinkCount ▸ hs)

theorem flush_delivering {now' : BitVec 64} {h : State R} (hd : Delivering h) :
    Delivering (flush eth answers now now' h) ∧ Delivered h (flush eth answers now now' h) := by
  obtain ⟨hd1, hout1, -, -⟩ :
      Delivering (flushUrgent eth answers now h) ∧ Delivered h (flushUrgent eth answers now h) ∧ _ :=
    flushPending_delivering hd
  obtain ⟨hd2, hout2, hkept, hcount⟩ :
      Delivering (flush eth answers now now' h) ∧
        Delivered (flushUrgent eth answers now h) (flush eth answers now now' h) ∧
        (∀ a ∈ (flushUrgent eth answers now h).accepted, a ∈ (flush eth answers now now' h).accepted) ∧ _ :=
    flushPending_delivering hd1
  refine ⟨hd2, fun i hi hout s hs => ?_⟩
  by_cases hmid : i ∈ (flushUrgent eth answers now h).pendingRecords.map PendingRecord.seq
  · exact hout2 i hmid hout s hs
  · exact hkept _ (hout1 i hi hmid s (hcount ▸ hs))

end Flush

/-! ## Publications -/

theorem evictedIndex_lt {record : DiagnosticRecord R} {records : List (PendingRecord R)}
    (h : records ≠ []) : evictedIndex record records < records.length := by
  have hpos := List.length_pos_iff.mpr h
  have hle : findOldestNormalPending records ≤ records.length := List.findIdx_le_length
  unfold evictedIndex
  split
  · dsimp only
    split <;> omega
  · exact hpos

/-- The queue with room for a record. -/
def room (record : DiagnosticRecord R) (records : List (PendingRecord R)) : List (PendingRecord R) :=
  if records.length = pendingCapacity then removePending (evictedIndex record records) records
  else records

theorem room_sublist (record : DiagnosticRecord R) (records : List (PendingRecord R)) :
    (room record records).Sublist records := by
  unfold room
  split
  · exact List.eraseIdx_sublist ..
  · exact .refl _

theorem length_room {record : DiagnosticRecord R} {records : List (PendingRecord R)}
    (h : records.length ≤ pendingCapacity) : (room record records).length < pendingCapacity := by
  have hcap : 0 < pendingCapacity := by decide
  unfold room
  split
  next hfull =>
    have hne : records ≠ [] := List.ne_nil_of_length_pos (by omega)
    rw [removePending, List.length_eraseIdx_of_lt (evictedIndex_lt hne)]
    omega
  next hroom => omega

theorem pushPending_eq (record : DiagnosticRecord R) (h : State R) :
    pushPending record h =
      { h with pendingRecords := room record h.pendingRecords ++ [{ record := record }] } := rfl

theorem Queued.sublist {h : State R} {records records' : List (PendingRecord R)}
    (hq : Queued h records) (hs : records'.Sublist records) : Queued h records' :=
  ⟨hq.ordered.sublist (hs.map _), fun p hp => hq.published p (hs.subset hp),
    fun p hp => hq.tracked p (hs.subset hp), fun p hp => hq.wanted p (hs.subset hp)⟩

/-- A record that no sink knows yet. -/
theorem Queued.snoc {h : State R} {records : List (PendingRecord R)} {record : DiagnosticRecord R}
    (hq : Queued h records) (hlast : ∀ i ∈ records.map PendingRecord.seq, i < record.seq)
    (hpub : record.seq < h.published) (hsinks : 0 < h.sinkCount)
    (hnew : ∀ s, (record.seq, s) ∉ h.accepted) : Queued h (records ++ [{ record := record }]) where
  ordered := by
    rw [List.map_append, List.pairwise_append]
    refine ⟨hq.ordered, List.pairwise_singleton .., fun i hi j hj => ?_⟩
    rw [List.mem_singleton.mp hj]
    exact hlast i hi
  published := List.forall_mem_append.mpr ⟨hq.published, List.forall_mem_singleton.mpr hpub⟩
  tracked := by
    refine List.forall_mem_append.mpr ⟨hq.tracked, List.forall_mem_singleton.mpr fun s _ => ?_⟩
    exact ⟨fun hset => absurd (BitVec.getLsbD_zero.symm.trans hset) nofun, fun hm => absurd hm (hnew s)⟩
  wanted := List.forall_mem_append.mpr
    ⟨hq.wanted, List.forall_mem_singleton.mpr ⟨0, hsinks, hnew 0⟩⟩

theorem pushHistory_remembers {h : State R} {record : DiagnosticRecord R} (hr : Remembers h)
    (hseq : record.seq = h.published) :
    Remembers (pushHistory record h) where
  count := by
    show (if h.historyCount < historyCapacity then h.historyCount + 1 else h.historyCount) =
      min (h.published + 1) historyCapacity
    rw [hr.count]
    split <;> omega
  next := by
    show (h.historyNextIndex + 1) % historyCapacity = (h.published + 1) % historyCapacity
    rw [hr.next, Nat.mod_add_mod]
  history k hk hk' := by
    change k < h.published + 1 at hk
    change h.published + 1 ≤ k + historyCapacity at hk'
    show (Function.update h.history h.historyNextIndex record (k % historyCapacity)).seq = k
    rw [hr.next]
    rcases Nat.lt_succ_iff_lt_or_eq.mp hk with hlt | rfl
    · have hne : k % historyCapacity ≠ h.published % historyCapacity := by
        unfold historyCapacity at hk' ⊢
        omega
      rw [Function.update_of_ne hne]
      exact hr.history k hlt (by omega)
    · rw [Function.update_self]
      exact hseq

theorem publish_eq (priority : DiagnosticPriority) (content : R) (h : State R) :
    publish priority content h =
      if h.sinkCount = 0 then pushHistory ⟨h.published, priority, content⟩ h
      else pushPending ⟨h.published, priority, content⟩
        (pushHistory ⟨h.published, priority, content⟩ h) := rfl

/-- A publication removes at most one record, and only from a full queue. -/
theorem publish_delivering {priority : DiagnosticPriority} {content : R} {h : State R}
    (hd : Delivering h) : Delivering (publish priority content h) ∧
      (h.pendingRecords.length < pendingCapacity → ∀ i ∈ h.pendingRecords.map PendingRecord.seq,
        i ∈ (publish priority content h).pendingRecords.map PendingRecord.seq) := by
  have hr : Remembers (pushHistory ⟨h.published, priority, content⟩ h) :=
    pushHistory_remembers hd.remembers rfl
  have hsound : Sound (pushHistory ⟨h.published, priority, content⟩ h) :=
    ⟨hd.sound.sinks, hd.sound.once, fun a ha =>
      ⟨Nat.lt_succ_of_lt (hd.sound.known a ha).1, (hd.sound.known a ha).2⟩⟩
  have hqueued : Queued (pushHistory ⟨h.published, priority, content⟩ h) h.pendingRecords :=
    ⟨hd.queued.ordered, fun p hp => Nat.lt_succ_of_lt (hd.queued.published p hp),
      hd.queued.tracked, hd.queued.wanted⟩
  rw [publish_eq]
  by_cases hnone : h.sinkCount = 0
  · rw [if_pos hnone]
    exact ⟨⟨hsound, hqueued, hd.bounded, hr⟩, fun _ i hi => hi⟩
  · rw [if_neg hnone, pushPending_eq]
    refine ⟨⟨⟨hsound.sinks, hsound.once, hsound.known⟩, ?_, ?_, ⟨hr.count, hr.next, hr.history⟩⟩,
      fun hroom i hi => ?_⟩
    · have hlast : ∀ i ∈ (room ⟨h.published, priority, content⟩ h.pendingRecords).map PendingRecord.seq,
          i < h.published := by
        intro i hi
        obtain ⟨p, hp, rfl⟩ := List.mem_map.mp hi
        exact hd.queued.published p ((room_sublist _ _).subset hp)
      have hnew : ∀ s, (h.published, s) ∉ h.accepted :=
        fun s hm => Nat.lt_irrefl h.published (hd.sound.known _ hm).1
      have hq : Queued (pushHistory ⟨h.published, priority, content⟩ h)
          (room ⟨h.published, priority, content⟩ h.pendingRecords ++
            [{ record := ⟨h.published, priority, content⟩ }]) :=
        (hqueued.sublist (room_sublist _ _)).snoc hlast (Nat.lt_succ_self _)
          (Nat.pos_of_ne_zero hnone) hnew
      exact ⟨hq.ordered, hq.published, hq.tracked, hq.wanted⟩
    · show (room _ _ ++ [_]).length ≤ pendingCapacity
      rw [List.length_append, List.length_singleton]
      exact length_room hd.bounded
    · show i ∈ (room _ h.pendingRecords ++ [_]).map PendingRecord.seq
      rw [room, if_neg (Nat.ne_of_lt hroom), List.map_append]
      exact List.mem_append_left _ hi

/-! ## Sinks -/

/-- The replay of `n` records fills an empty queue with them. -/
theorem replay_eq (h : State R) (hempty : h.pendingRecords = []) (record : Nat → DiagnosticRecord R)
    (n : Nat) (hn : n ≤ pendingCapacity) :
    (List.range n).foldl (fun h' i => pushPending (record i) h') h =
      { h with pendingRecords := (List.range n).map fun i => { record := record i } } := by
  induction n with
  | zero =>
    cases h
    cases hempty
    rfl
  | succ n ih =>
    have hroom : ((List.range n).map fun i => ({ record := record i } : PendingRecord R)).length ≠
        pendingCapacity := by
      rw [List.length_map, List.length_range]
      omega
    rw [List.range_succ, List.foldl_append, ih (by omega), List.foldl_cons, List.foldl_nil,
      pushPending_eq, room, if_neg hroom, List.map_append]
    rfl

/-- The oldest record of the ring stands where the replay starts. -/
theorem history_seq {h : State R} (hr : Remembers h) {i : Nat} (hi : i < h.historyCount) :
    (h.history (((if h.historyCount = historyCapacity then h.historyNextIndex else 0) + i) %
      historyCapacity)).seq = h.published - h.historyCount + i := by
  have hcount := hr.count
  have hidx : ((if h.historyCount = historyCapacity then h.historyNextIndex else 0) + i) %
      historyCapacity = (h.published - h.historyCount + i) % historyCapacity := by
    rw [hr.next]
    unfold historyCapacity at hcount ⊢
    split <;> omega
  rw [hidx]
  exact hr.history _ (by omega) (by omega)

theorem replay_delivering {h : State R} (hd : Delivering h) (hsinks : h.sinkCount = 1)
    (hempty : h.pendingRecords = []) (hnew : h.accepted = []) :
    Delivering (replayHistoryToPending h) := by
  unfold replayHistoryToPending
  by_cases hskip : h.sinkCount = 0 ∨ h.historyCount = 0 ∨ h.pendingRecords.length ≠ 0
  · rw [if_pos hskip]
    exact hd
  · rw [if_neg hskip]
    have hcount : h.historyCount ≤ pendingCapacity := by
      rw [hd.remembers.count]
      exact Nat.min_le_right ..
    have hpub : h.historyCount ≤ h.published := by
      rw [hd.remembers.count]
      exact Nat.min_le_left ..
    have hreplay := replay_eq h hempty (fun i => h.history (((if h.historyCount = historyCapacity then
      h.historyNextIndex else 0) + i) % historyCapacity)) h.historyCount hcount
    dsimp only
    rw [hreplay]
    refine ⟨⟨hd.sound.sinks, hd.sound.once, hd.sound.known⟩, ⟨?_, ?_, ?_, ?_⟩, ?_,
      ⟨hd.remembers.count, hd.remembers.next, hd.remembers.history⟩⟩
    · dsimp only
      rw [List.map_map, List.pairwise_map]
      refine List.Pairwise.imp_of_mem (fun {i j} hi hj hlt => ?_) List.pairwise_lt_range
      show (DiagnosticRecord.seq _) < DiagnosticRecord.seq _
      rw [history_seq hd.remembers (List.mem_range.mp hi), history_seq hd.remembers (List.mem_range.mp hj)]
      omega
    · refine List.forall_mem_map.mpr fun i hi => ?_
      show DiagnosticRecord.seq _ < h.published
      rw [history_seq hd.remembers (List.mem_range.mp hi)]
      have := List.mem_range.mp hi
      omega
    · refine List.forall_mem_map.mpr fun i _ s _ => ⟨fun hset => ?_, fun hm => ?_⟩
      · exact absurd (BitVec.getLsbD_zero.symm.trans hset) nofun
      · exact absurd (hnew ▸ hm) List.not_mem_nil
    · refine List.forall_mem_map.mpr fun i _ => ⟨0, by rw [hsinks]; decide, fun hm => ?_⟩
      exact absurd (hnew ▸ hm) List.not_mem_nil
    · dsimp only
      rw [List.length_map, List.length_range]
      exact hcount

/-- Installing a sink removes nothing. -/
theorem emplaceSink_delivering {fits : Bool} {h : State R} (hd : Delivering h) :
    Delivering (emplaceSink fits h).2 ∧ ∀ i ∈ h.pendingRecords.map PendingRecord.seq,
      i ∈ (emplaceSink fits h).2.pendingRecords.map PendingRecord.seq := by
  unfold emplaceSink
  by_cases hmany : h.sinkCount ≥ maxSinks
  · simp only [if_pos hmany]
    exact ⟨hd, fun _ hi => hi⟩
  · simp only [if_neg hmany]
    cases fits with
    | false => exact ⟨hd, fun _ hi => hi⟩
    | true =>
      simp only [if_true]
      have hmore : Delivering ({ h with sinkCount := h.sinkCount + 1 } : State R) :=
        ⟨⟨Nat.lt_of_not_le hmany, hd.sound.once, fun a ha =>
            ⟨(hd.sound.known a ha).1, Nat.lt_succ_of_lt (hd.sound.known a ha).2⟩⟩,
          ⟨hd.queued.ordered, hd.queued.published, hd.queued.tracked, fun p hp =>
            let ⟨s, hs, hm⟩ := hd.queued.wanted p hp
            ⟨s, Nat.lt_succ_of_lt hs, hm⟩⟩,
          hd.bounded, ⟨hd.remembers.count, hd.remembers.next, hd.remembers.history⟩⟩
      by_cases hnone : h.sinkCount = 0
      · have hempty : h.pendingRecords = [] := List.eq_nil_iff_forall_not_mem.mpr fun p hp => by
          obtain ⟨s, hs, -⟩ := hd.queued.wanted p hp
          omega
        have hnew : h.accepted = [] := List.eq_nil_iff_forall_not_mem.mpr fun a ha => by
          have := (hd.sound.known a ha).2
          omega
        rw [if_pos (by rw [hnone]; rfl)]
        refine ⟨replay_delivering hmore (by show h.sinkCount + 1 = 1; omega) hempty hnew, ?_⟩
        rw [hempty]
        nofun
      · rw [if_neg (by simpa using hnone)]
        exact ⟨hmore, fun _ hi => hi⟩

/-! ## Main result -/

variable {eth : Bool} {answers : Nat → Bool}

theorem initial_delivering [Inhabited R] : Delivering (initial R) where
  sound := ⟨Nat.zero_le _, List.nodup_nil, nofun⟩
  queued := ⟨List.Pairwise.nil, nofun, nofun, nofun⟩
  bounded := Nat.zero_le _
  remembers := ⟨rfl, rfl, nofun⟩

/-- A record leaves the queue when every installed sink has accepted it, or when a
publication finds the queue full. -/
def Leaves (op : HubOp R) (h h' : State R) : Prop :=
  ∀ i ∈ h.pendingRecords.map PendingRecord.seq, i ∉ h'.pendingRecords.map PendingRecord.seq →
    (∀ s < h'.sinkCount, (i, s) ∈ h'.accepted) ∨
      (h.pendingRecords.length = pendingCapacity ∧
        ∃ priority content, op = .publish priority content)

theorem op_delivering (op : HubOp R) {h : State R} (hd : Delivering h) :
    Delivering (op.run eth answers h) ∧ Leaves op h (op.run eth answers h) := by
  cases op with
  | publish priority content =>
    obtain ⟨hd', hroom⟩ : Delivering (publish priority content h) ∧ _ := publish_delivering hd
    refine ⟨hd', fun i hi hout => .inr ⟨?_, _, _, rfl⟩⟩
    by_contra hne
    exact hout (hroom (Nat.lt_of_le_of_ne hd.bounded hne) i hi)
  | flush now now' =>
    obtain ⟨hd', hout⟩ : Delivering (flush eth answers now now' h) ∧ _ := flush_delivering hd
    exact ⟨hd', fun i hi hgone => .inl (hout i hi hgone)⟩
  | flushUrgent now =>
    obtain ⟨hd', hout, -⟩ : Delivering (flushUrgent eth answers now h) ∧ _ := flushPending_delivering hd
    exact ⟨hd', fun i hi hgone => .inl (hout i hi hgone)⟩
  | emplaceSink fits =>
    obtain ⟨hd', hstay⟩ : Delivering (emplaceSink fits h).2 ∧ _ := emplaceSink_delivering hd
    exact ⟨hd', fun i hi hgone => absurd (hstay i hi) hgone⟩

theorem after_concat [Inhabited R] (eth : Bool) (answers : Nat → Bool) (ops : List (HubOp R))
    (op : HubOp R) : after eth answers (ops ++ [op]) = op.run eth answers (after eth answers ops) :=
  List.foldl_append ..

theorem after_delivering [Inhabited R] (eth : Bool) (answers : Nat → Bool) (ops : List (HubOp R)) :
    Delivering (after eth answers ops) := by
  induction ops using List.reverseRecOn with
  | nil => exact initial_delivering
  | append_singleton ops op ih =>
    rw [after_concat]
    exact (op_delivering op ih).1

/-- **Hub delivery**: after any calls and whatever the sinks answer, no sink has accepted a
record twice, the queue is within its capacity and in publication order, and the next
call removes only records that are delivered or evicted. -/
theorem hub_delivery [Inhabited R] (eth : Bool) (answers : Nat → Bool) (ops : List (HubOp R)) :
    (after eth answers ops).accepted.Nodup ∧
      (after eth answers ops).pendingRecords.length ≤ pendingCapacity ∧
      ((after eth answers ops).pendingRecords.map PendingRecord.seq).Pairwise (· < ·) ∧
      ∀ op, Leaves op (after eth answers ops) (after eth answers (ops ++ [op])) := by
  have hd := after_delivering eth answers ops
  refine ⟨hd.sound.once, hd.bounded, hd.queued.ordered, fun op => ?_⟩
  rw [after_concat]
  exact (op_delivering op hd).2

end StLib.Diagnostics.HubDelivery
