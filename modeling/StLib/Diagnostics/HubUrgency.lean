import StLib.Diagnostics.HubDelivery

/-! # Urgent records before normal ones

`flush` passes over the queue twice, first for the urgent records. What the first pass
leaves in the queue does not hold the second one back. -/
namespace StLib.Diagnostics.HubUrgency

open Hub HubDelivery

variable {R : Type}

/-! ## What is handed to the sinks -/

/-- A call of a sink: the record it is handed, and the queue at that moment. -/
structure Handing (R : Type) where
  record : PendingRecord R
  sink : Nat
  pending : List (PendingRecord R)

/-- The bit of the sink in `delivered_mask`. -/
def Accepted (p : PendingRecord R) (sink : Nat) : Prop := p.deliveredMask &&& sinkMask sink ≠ 0#8

instance (p : PendingRecord R) (sink : Nat) : Decidable (Accepted p sink) :=
  inferInstanceAs (Decidable (_ ≠ _))

section Handings

variable (eth : Bool) (answers : Nat → Bool) (urgentOnly : Bool) (now : BitVec 64)

/-- The calls of the loop over the sinks, for a record between `before` and `rest`. -/
def handSinks (before rest : List (PendingRecord R)) :
    List Nat → PendingRecord R × State R → List (Handing R)
  | [], _ => []
  | sink :: sinks, s =>
    let later := handSinks before rest sinks (askSink eth answers urgentOnly now s sink)
    if Accepted s.1 sink then later
    else { record := s.1, sink, pending := before ++ s.1 :: rest } :: later

/-- The calls of the loop over the queue; the records `before` are behind the loop. -/
def handRecords (before : List (PendingRecord R)) :
    List (PendingRecord R) → State R → List (Handing R)
  | [], _ => []
  | p :: rest, h =>
    if skips eth urgentOnly now p h then handRecords (before ++ [p]) rest h
    else
      let (p', h') := askSinks eth answers urgentOnly now p h
      handSinks eth answers urgentOnly now before rest (List.range h.sinkCount) (p, h) ++
        handRecords (if p'.deliveredMask = targetMask h'.sinkCount then before else before ++ [p'])
          rest h'

def handPending (h : State R) : List (Handing R) :=
  handRecords eth answers urgentOnly now [] h.pendingRecords h

end Handings

/-- The calls of a `flush`, in order. -/
def handings (eth : Bool) (answers : Nat → Bool) (now now' : BitVec 64) (h : State R) :
    List (Handing R) :=
  handPending eth answers true now h ++
    handPending eth answers false now' (flushUrgent eth answers now h)

/-- No normal record is handed to a sink while an urgent one that it has not accepted is
pending. -/
def UrgentFirst (calls : List (Handing R)) : Prop :=
  ∀ x ∈ calls, x.record.record.priority = .normal →
    ∀ u ∈ x.pending, u.record.priority = .urgent → Accepted u x.sink

/-- The last normal pass that delivered something was less than 100 ms ago. -/
def Throttled (eth : Bool) (now : BitVec 64) (h : State R) : Prop :=
  eth = true ∧ h.lastNormalFlushUs ≠ 0#64 ∧ now - h.lastNormalFlushUs < 100000#64

/-! ### They are the calls of the model -/

section Count

variable (eth : Bool) (answers : Nat → Bool) (urgentOnly : Bool) (now : BitVec 64)

theorem askSinks_count (before rest : List (PendingRecord R)) (sinks : List Nat)
    (s : PendingRecord R × State R) :
    (sinks.foldl (askSink eth answers urgentOnly now) s).2.asked =
      s.2.asked + (handSinks eth answers urgentOnly now before rest sinks s).length := by
  induction sinks generalizing s with
  | nil => rfl
  | cons sink sinks ih =>
    have hone : (askSink eth answers urgentOnly now s sink).2.asked =
        s.2.asked + if Accepted s.1 sink then 0 else 1 := by
      rw [askSink]
      by_cases ha : Accepted s.1 sink
      · rw [if_pos ha, if_pos (show s.1.deliveredMask &&& sinkMask sink ≠ 0#8 from ha)]
        rfl
      · rw [if_neg ha, if_neg (show ¬ s.1.deliveredMask &&& sinkMask sink ≠ 0#8 from ha)]
        split
        next => rfl
        next => rfl
    rw [List.foldl_cons, ih, hone, handSinks]
    by_cases ha : Accepted s.1 sink
    · rw [if_pos ha, if_pos ha, Nat.add_zero]
    · rw [if_neg ha, if_neg ha, List.length_cons, Nat.add_assoc, Nat.add_comm 1]

theorem flushRecords_count (before records : List (PendingRecord R)) (h : State R) :
    (flushRecords eth answers urgentOnly now records h).2.asked =
      h.asked + (handRecords eth answers urgentOnly now before records h).length := by
  induction records generalizing before h with
  | nil => rfl
  | cons p rest ih =>
    rw [flushRecords, handRecords]
    split
    next => exact ih (before ++ [p]) h
    next =>
      have hsinks := askSinks_count eth answers urgentOnly now before rest
        (List.range h.sinkCount) (p, h)
      rw [List.length_append, ← Nat.add_assoc, ← hsinks]
      exact ih _ _

end Count

/-- Each call of a sink is counted. -/
theorem flush_count (eth : Bool) (answers : Nat → Bool) (now now' : BitVec 64) (h : State R) :
    (flush eth answers now now' h).asked =
      h.asked + (handings eth answers now now' h).length := by
  rw [flush, handings, List.length_append, ← Nat.add_assoc]
  have hurgent := flushRecords_count eth answers true now [] h.pendingRecords h
  have hall := flushRecords_count eth answers false now' []
    (flushUrgent eth answers now h).pendingRecords (flushUrgent eth answers now h)
  exact hall.trans (congrArg (· + _) hurgent)

/-! ## Masks only grow -/

/-- The record is one of `Q`, accepted by the same sinks or by more. -/
def Grown (Q : List (PendingRecord R)) (p : PendingRecord R) : Prop :=
  ∃ p₀ ∈ Q, p.record = p₀.record ∧ ∀ s, Accepted p₀ s → Accepted p s

theorem Grown.refl {Q : List (PendingRecord R)} {p : PendingRecord R} (h : p ∈ Q) : Grown Q p :=
  ⟨p, h, rfl, fun _ hs => hs⟩

theorem Grown.trans {Q Q' : List (PendingRecord R)} {p : PendingRecord R} (h : Grown Q' p)
    (hQ : ∀ q ∈ Q', Grown Q q) : Grown Q p := by
  obtain ⟨q, hq, hr, ha⟩ := h
  obtain ⟨q₀, hq₀, hr₀, ha₀⟩ := hQ q hq
  exact ⟨q₀, hq₀, hr.trans hr₀, fun s hs => ha s (ha₀ s hs)⟩

theorem accepted_or {m k : BitVec 8} {s : Nat} (h : m &&& sinkMask s ≠ 0#8) :
    (m ||| k) &&& sinkMask s ≠ 0#8 := by
  intro hz
  refine h (BitVec.eq_of_getLsbD_eq fun i _ => ?_)
  have hi := congrArg (BitVec.getLsbD · i) hz
  simp only [BitVec.getLsbD_and, BitVec.getLsbD_or, BitVec.getLsbD_zero] at hi ⊢
  cases hm : m.getLsbD i with
  | false => rfl
  | true => rwa [hm, Bool.true_or] at hi

section Flush

variable {eth : Bool} {answers : Nat → Bool} {urgentOnly : Bool} {now : BitVec 64}
variable {Q before rest records : List (PendingRecord R)} {p : PendingRecord R} {h : State R}
variable {s : PendingRecord R × State R}

theorem askSink_grown (hp : Grown Q s.1) (sink : Nat) :
    Grown Q (askSink eth answers urgentOnly now s sink).1 := by
  obtain ⟨p₀, hp₀, hr, ha⟩ := hp
  rw [askSink]
  split
  next => exact ⟨p₀, hp₀, hr, ha⟩
  next =>
    split
    next => exact ⟨p₀, hp₀, hr, fun s hs => accepted_or (ha s hs)⟩
    next => exact ⟨p₀, hp₀, hr, ha⟩

/-- What every sink's turn keeps, the loop over the sinks keeps. -/
theorem askSinks_keeps {P : PendingRecord R × State R → Prop}
    (step : ∀ s sink, P s → P (askSink eth answers urgentOnly now s sink)) (h0 : P (p, h)) :
    P (askSinks eth answers urgentOnly now p h) := by
  have hall : ∀ (sinks : List Nat) s, P s →
      P (sinks.foldl (askSink eth answers urgentOnly now) s) := by
    intro sinks
    induction sinks with
    | nil => exact fun _ hs => hs
    | cons sink sinks ih => exact fun s hs => ih _ (step s sink hs)
  exact hall _ _ h0

/-- What a call of a sink in a pass over `Q` is about. -/
structure Proper (urgentOnly : Bool) (Q : List (PendingRecord R)) (sinkCount : Nat)
    (x : Handing R) : Prop where
  record : Grown Q x.record
  pending : ∀ u ∈ x.pending, Grown Q u
  sink : x.sink < sinkCount
  unaccepted : ¬ Accepted x.record x.sink
  urgent : urgentOnly = true → x.record.record.priority = .urgent

theorem handSinks_proper {sinks : List Nat} {n : Nat} (hsinks : ∀ sink ∈ sinks, sink < n)
    (hb : ∀ u ∈ before, Grown Q u) (hr : ∀ u ∈ rest, Grown Q u) (hp : Grown Q s.1)
    (hu : urgentOnly = true → s.1.record.priority = .urgent) :
    ∀ x ∈ handSinks eth answers urgentOnly now before rest sinks s, Proper urgentOnly Q n x := by
  induction sinks generalizing s with
  | nil => exact fun x hx => absurd hx List.not_mem_nil
  | cons sink sinks ih =>
    have hrecord : (askSink eth answers urgentOnly now s sink).1.record = s.1.record := by
      rw [askSink]
      split
      next => rfl
      next => split <;> rfl
    have hlater := ih (fun sink hs => hsinks sink (List.mem_cons_of_mem _ hs))
      (askSink_grown hp sink) (fun h => by rw [hrecord]; exact hu h)
    intro x hx
    rw [handSinks] at hx
    split at hx
    next => exact hlater x hx
    next ha =>
      rcases List.mem_cons.mp hx with rfl | hx
      · refine ⟨hp, fun u hu => ?_, hsinks sink List.mem_cons_self, ha, hu⟩
        rcases List.mem_append.mp hu with hu | hu
        · exact hb u hu
        · rcases List.mem_cons.mp hu with rfl | hu
          · exact hp
          · exact hr u hu
      · exact hlater x hx

theorem askSink_sinkCount (s : PendingRecord R × State R) (sink : Nat) :
    (askSink eth answers urgentOnly now s sink).2.sinkCount = s.2.sinkCount := by
  rw [askSink]
  split
  next => rfl
  next => split <;> rfl

theorem askSinks_sinkCount : (askSinks eth answers urgentOnly now p h).2.sinkCount = h.sinkCount :=
  askSinks_keeps (P := fun s => s.2.sinkCount = h.sinkCount)
    (fun s sink hs => (askSink_sinkCount s sink).trans hs) rfl

theorem handRecords_proper (hb : ∀ u ∈ before, Grown Q u) (hr : ∀ u ∈ records, Grown Q u) :
    ∀ x ∈ handRecords eth answers urgentOnly now before records h,
      Proper urgentOnly Q h.sinkCount x := by
  induction records generalizing before h with
  | nil => exact fun x hx => absurd hx List.not_mem_nil
  | cons p rest ih =>
    have hp := hr p List.mem_cons_self
    have hrest := fun u hu => hr u (List.mem_cons_of_mem p hu)
    have snoc : ∀ q, Grown Q q → ∀ u ∈ before ++ [q], Grown Q u := fun q hq u hu => by
      rcases List.mem_append.mp hu with hu | hu
      · exact hb u hu
      · exact List.mem_singleton.mp hu ▸ hq
    intro x hx
    rw [handRecords] at hx
    split at hx
    next => exact ih (snoc p hp) hrest x hx
    next hskip =>
      have hurgent : urgentOnly = true → p.record.priority = .urgent := fun he => by
        have hno : (p.record.priority != .urgent) = false := by
          simp only [skips, he, Bool.true_and, Bool.or_eq_true, not_or, Bool.not_eq_true] at hskip
          exact hskip.1
        simpa using hno
      have hp' : Grown Q (askSinks eth answers urgentOnly now p h).1 :=
        askSinks_keeps (P := fun s => Grown Q s.1) (fun s sink hs => askSink_grown hs sink) hp
      rcases List.mem_append.mp hx with hx | hx
      · exact handSinks_proper (fun sink hs => List.mem_range.mp hs) hb hrest hp hurgent x hx
      · have hbefore : ∀ u ∈ (if (askSinks eth answers urgentOnly now p h).1.deliveredMask =
            targetMask (askSinks eth answers urgentOnly now p h).2.sinkCount then before
            else before ++ [(askSinks eth answers urgentOnly now p h).1]), Grown Q u := by
          split
          next => exact hb
          next => exact snoc _ hp'
        have hx' := ih (h := (askSinks eth answers urgentOnly now p h).2) hbefore hrest x hx
        rwa [askSinks_sinkCount] at hx'

theorem flushRecords_grown (hr : ∀ u ∈ records, Grown Q u) :
    ∀ u ∈ (flushRecords eth answers urgentOnly now records h).1, Grown Q u := by
  induction records generalizing h with
  | nil => exact fun u hu => absurd hu List.not_mem_nil
  | cons p rest ih =>
    have hp := hr p List.mem_cons_self
    have hrest : ∀ h' : State R, ∀ u ∈ (flushRecords eth answers urgentOnly now rest h').1,
        Grown Q u := fun h' => ih fun u hu => hr u (List.mem_cons_of_mem p hu)
    have hp' : Grown Q (askSinks eth answers urgentOnly now p h).1 :=
      askSinks_keeps (P := fun s => Grown Q s.1) (fun s sink hs => askSink_grown hs sink) hp
    intro u hu
    rw [flushRecords] at hu
    split at hu
    next =>
      rcases List.mem_cons.mp hu with rfl | hu
      · exact hp
      · exact hrest h u hu
    next =>
      dsimp only at hu
      split at hu
      next => exact hrest _ u hu
      next =>
        rcases List.mem_cons.mp hu with rfl | hu
        · exact hp'
        · exact hrest _ u hu

/-- What every sink's turn keeps of the state, a pass keeps. -/
theorem flushRecords_keeps {P : State R → Prop}
    (step : ∀ s sink, P s.2 → P (askSink eth answers urgentOnly now s sink).2) (h0 : P h) :
    P (flushRecords eth answers urgentOnly now records h).2 := by
  induction records generalizing h with
  | nil => exact h0
  | cons p rest ih =>
    rw [flushRecords]
    split
    next => exact ih h0
    next => exact ih (askSinks_keeps (P := fun s => P s.2) step h0)

theorem flushRecords_sinkCount :
    (flushRecords eth answers urgentOnly now records h).2.sinkCount = h.sinkCount :=
  flushRecords_keeps (P := fun h' => h'.sinkCount = h.sinkCount)
    (fun s sink hs => (askSink_sinkCount s sink).trans hs) rfl

end Flush

/-! ## A throttled pass, and sinks that reject everything -/

/-- The sinks that accept nothing. -/
def reject (_ : Nat) : Bool := false

section Reject

variable {eth : Bool} {answers : Nat → Bool} {now : BitVec 64}
variable {before records : List (PendingRecord R)} {p : PendingRecord R} {h : State R}

theorem handRecords_throttled (ht : Throttled eth now h) :
    handRecords eth answers false now before records h = [] := by
  induction records generalizing before with
  | nil => rfl
  | cons p rest ih =>
    obtain ⟨he, h0, hlt⟩ := ht
    have hskip : skips eth false now p h = true := by
      have hlast : lastFlush false h = h.lastNormalFlushUs := rfl
      simp [skips, hlast, he, h0, hlt]
    rw [handRecords, if_pos hskip, ih]

/-- The urgent pass leaves the other throttle alone. -/
theorem flushUrgent_throttle {now₀ : BitVec 64} :
    Throttled eth now (flushUrgent eth answers now₀ h) ↔ Throttled eth now h := by
  have hsame : (flushUrgent eth answers now₀ h).lastNormalFlushUs = h.lastNormalFlushUs :=
    flushRecords_keeps (P := fun h' => h'.lastNormalFlushUs = h.lastNormalFlushUs)
      (fun s sink hs => by
        rw [askSink]
        split
        next => exact hs
        next =>
          split
          next =>
            show (if (eth && !true) = true then _ else _) = _
            rw [Bool.not_true, Bool.and_false, if_neg Bool.false_ne_true]
            exact hs
          next => exact hs) rfl
  rw [Throttled, Throttled, hsame]

theorem askSink_reject (eth urgentOnly : Bool) (now : BitVec 64) (s : PendingRecord R × State R) (sink : Nat) :
    (askSink eth reject urgentOnly now s sink).1 = s.1 ∧
      (askSink eth reject urgentOnly now s sink).2.lastNormalFlushUs = s.2.lastNormalFlushUs := by
  rw [askSink]
  split
  next => exact ⟨rfl, rfl⟩
  next => exact ⟨rfl, rfl⟩

theorem askSinks_reject (eth urgentOnly : Bool) (now : BitVec 64) (p : PendingRecord R)
    (h : State R) :
    (askSinks eth reject urgentOnly now p h).1 = p ∧
      (askSinks eth reject urgentOnly now p h).2.lastNormalFlushUs = h.lastNormalFlushUs :=
  askSinks_keeps (P := fun s => s.1 = p ∧ s.2.lastNormalFlushUs = h.lastNormalFlushUs)
    (fun s sink hs => by
      obtain ⟨h1, h2⟩ := askSink_reject eth urgentOnly now s sink
      exact ⟨h1.trans hs.1, h2.trans hs.2⟩) ⟨rfl, rfl⟩

/-- A record that is not full stays as it is. -/
theorem flushRecords_reject (urgentOnly : Bool) (hp : p ∈ records)
    (hopen : p.deliveredMask ≠ targetMask h.sinkCount) :
    p ∈ (flushRecords eth reject urgentOnly now records h).1 := by
  induction records generalizing h with
  | nil => exact absurd hp List.not_mem_nil
  | cons q rest ih =>
    have hcount : (askSinks eth reject urgentOnly now q h).2.sinkCount = h.sinkCount :=
      askSinks_sinkCount
    obtain ⟨hq, -⟩ := askSinks_reject eth urgentOnly now q h
    rw [flushRecords]
    split
    next =>
      rcases List.mem_cons.mp hp with rfl | hp
      · exact List.mem_cons_self
      · exact List.mem_cons_of_mem _ (ih hp hopen)
    next =>
      dsimp only
      rw [hcount, hq]
      rcases List.mem_cons.mp hp with rfl | hp
      · rw [if_neg hopen]
        exact List.mem_cons_self
      · have hmem := ih (h := (askSinks eth reject urgentOnly now q h).2) hp (by rwa [hcount])
        split
        next => exact hmem
        next => exact List.mem_cons_of_mem _ hmem

theorem handSinks_reject {rest : List (PendingRecord R)} {sink : Nat} (hsink : ¬ Accepted p sink) :
    ∀ {sinks : List Nat} {h : State R}, sink ∈ sinks →
      ({ record := p, sink, pending := before ++ p :: rest } : Handing R) ∈
        handSinks eth reject false now before rest sinks (p, h)
  | other :: sinks, h, hs => by
    rw [handSinks]
    have hlater : sink ∈ sinks →
        ({ record := p, sink, pending := before ++ p :: rest } : Handing R) ∈
          handSinks eth reject false now before rest sinks
            (askSink eth reject false now (p, h) other) := fun hs => by
      obtain ⟨h1, -⟩ := askSink_reject eth false now (p, h) other
      have hpair : askSink eth reject false now (p, h) other =
          (p, (askSink eth reject false now (p, h) other).2) := Prod.ext h1 rfl
      rw [hpair]
      exact handSinks_reject hsink hs
    rcases List.mem_cons.mp hs with rfl | hs
    · rw [if_neg hsink]
      exact List.mem_cons_self
    · split
      next => exact hlater hs
      next => exact List.mem_cons_of_mem _ (hlater hs)

/-- A pass that is not throttled hands a record to a sink that has not accepted it, and
all that is pending and not full stays so. -/
theorem handRecords_reject (before : List (PendingRecord R)) (ht : ¬ Throttled eth now h) {sink : Nat} (hs : sink < h.sinkCount)
    (hsink : ¬ Accepted p sink) (hp : p ∈ records) :
    ∃ x ∈ handRecords eth reject false now before records h, x.record = p ∧ x.sink = sink ∧
      ∀ u ∈ before ++ records, u.deliveredMask ≠ targetMask h.sinkCount → u ∈ x.pending := by
  induction records generalizing before h with
  | nil => exact absurd hp List.not_mem_nil
  | cons q rest ih =>
    have hskip : ¬ skips eth false now q h = true := fun hskip => by
      simp only [skips, Bool.false_and, Bool.false_or, Bool.and_eq_true, bne_iff_ne, ne_eq,
        decide_eq_true_eq] at hskip
      exact ht ⟨hskip.1.1, hskip.1.2, hskip.2⟩
    rw [handRecords, if_neg hskip]
    dsimp only
    have hcount : (askSinks eth reject false now q h).2.sinkCount = h.sinkCount :=
      askSinks_sinkCount
    obtain ⟨hq, hlast⟩ := askSinks_reject eth false now q h
    rw [hcount, hq]
    rcases List.mem_cons.mp hp with rfl | hp
    · exact ⟨_, List.mem_append_left _ (handSinks_reject hsink (List.mem_range.mpr hs)), rfl, rfl,
        fun u hu _ => hu⟩
    · have ht' : ¬ Throttled eth now (askSinks eth reject false now q h).2 := by
        rwa [Throttled, hlast]
      obtain ⟨x, hx, hrecord, hsinkx, hpending⟩ := ih (h := (askSinks eth reject false now q h).2)
        (if q.deliveredMask = targetMask h.sinkCount then before else before ++ [q])
        ht' (by rwa [hcount]) hp
      refine ⟨x, List.mem_append_right _ hx, hrecord, hsinkx, fun u hu hopen => ?_⟩
      refine hpending u ?_ (by rwa [hcount])
      rcases List.mem_append.mp hu with hu | hu
      · refine List.mem_append_left _ ?_
        split
        next => exact hu
        next => exact List.mem_append_left _ hu
      · rcases List.mem_cons.mp hu with rfl | hu
        · rw [if_neg hopen]
          exact List.mem_append_left _ (List.mem_append_right _ List.mem_cons_self)
        · exact List.mem_append_right _ hu

/-- A record that lacks a sink is not full. -/
theorem ne_targetMask {n s : Nat} (hn : n ≤ maxSinks) (hs : s < n) (hp : ¬ Accepted p s) :
    p.deliveredMask ≠ targetMask n := by
  intro he
  have h8 : s < 8 := Nat.lt_of_lt_of_le hs (Nat.le_trans hn (by decide))
  refine hp ((and_sinkMask h8).mpr ?_)
  rw [he, targetMask_getLsbD h8 hn]
  exact decide_eq_true hs

end Reject

/-! ## Main results -/

/-- For every sink, all urgent records of the queue have been accepted by it, or all
normal ones. -/
def Settled (h : State R) : Prop :=
  ∀ s < h.sinkCount, ∀ u ∈ h.pendingRecords, u.record.priority = .urgent →
    ∀ p ∈ h.pendingRecords, p.record.priority = .normal → Accepted u s ∨ Accepted p s

theorem urgentFirst_of_settled {eth : Bool} {answers : Nat → Bool} {now now' : BitVec 64}
    {h : State R} (hset : Throttled eth now' h ∨ Settled h) :
    UrgentFirst (handings eth answers now now' h) := by
  intro x hx hnormal u hu hurgent
  rcases List.mem_append.mp hx with hx | hx
  · have hp := handRecords_proper (Q := h.pendingRecords) (fun u hu => absurd hu List.not_mem_nil)
      (fun u hu => .refl hu) x hx
    rw [hp.urgent rfl] at hnormal
    cases hnormal
  · rcases hset with ht | hset
    · have hnil : handPending eth answers false now' (flushUrgent eth answers now h) = [] :=
        handRecords_throttled (flushUrgent_throttle.mpr ht)
      rw [hnil] at hx
      exact absurd hx List.not_mem_nil
    · have hfirst : ∀ u ∈ (flushUrgent eth answers now h).pendingRecords,
          Grown h.pendingRecords u := flushRecords_grown fun u hu => .refl hu
      have hp := handRecords_proper (Q := h.pendingRecords)
        (fun u hu => absurd hu List.not_mem_nil) hfirst x hx
      have hcount : (flushUrgent eth answers now h).sinkCount = h.sinkCount :=
        flushRecords_sinkCount
      obtain ⟨p₀, hp₀, hpr, hpa⟩ := hp.record
      obtain ⟨u₀, hu₀, hur, hua⟩ := hp.pending u hu
      rw [hpr] at hnormal
      rw [hur] at hurgent
      rcases hset x.sink (hcount ▸ hp.sink) u₀ hu₀ hurgent p₀ hp₀ hnormal with ha | ha
      · exact hua x.sink ha
      · exact absurd (hpa x.sink ha) hp.unaccepted

theorem settled_of_urgentFirst {eth : Bool} {now now' : BitVec 64} {h : State R}
    (hn : h.sinkCount ≤ maxSinks) (hfirst : UrgentFirst (handings eth reject now now' h)) :
    Throttled eth now' h ∨ Settled h := by
  by_contra hcon
  obtain ⟨ht, hset⟩ := not_or.mp hcon
  refine hset fun s hs u hu hurgent p hp hnormal => ?_
  by_contra hacc
  obtain ⟨hua, hpa⟩ := not_or.mp hacc
  have hu' : u ∈ (flushUrgent eth reject now h).pendingRecords :=
    flushRecords_reject true hu (ne_targetMask hn hs hua)
  have hp' : p ∈ (flushUrgent eth reject now h).pendingRecords :=
    flushRecords_reject true hp (ne_targetMask hn hs hpa)
  have hcount : (flushUrgent eth reject now h).sinkCount = h.sinkCount := flushRecords_sinkCount
  obtain ⟨x, hx, hrecord, hsink, hpending⟩ := handRecords_reject []
    (fun h => ht (flushUrgent_throttle.mp h)) (by rwa [hcount]) hpa hp'
  have hacc := hfirst x (List.mem_append_right _ hx) (by rw [hrecord]; exact hnormal) u
    (hpending u hu' (by rw [hcount]; exact ne_targetMask hn hs hua)) hurgent
  rw [hsink] at hacc
  exact hua hacc

/-- **Urgent first.** Whatever the sinks answer, a flush hands no normal record to a sink
ahead of an urgent one exactly when normal records are throttled, or no sink lacks both an
urgent and a normal one. -/
theorem urgent_first_iff [Inhabited R] (eth : Bool) (answers : Nat → Bool) (ops : List (HubOp R))
    (now now' : BitVec 64) :
    (∀ answers', UrgentFirst (handings eth answers' now now' (after eth answers ops))) ↔
      Throttled eth now' (after eth answers ops) ∨ Settled (after eth answers ops) :=
  ⟨fun hfirst =>
      settled_of_urgentFirst (after_delivering eth answers ops).sound.sinks (hfirst reject),
    fun hset _ => urgentFirst_of_settled hset⟩

/-- **A sink that rejects the urgent record** is handed the normal one after it. -/
theorem normal_overtakes :
    ¬ ∀ (eth : Bool) (answers : Nat → Bool) (ops : List (HubOp Unit)) (now now' : BitVec 64),
      UrgentFirst (handings eth answers now now' (after eth answers ops)) := by
  intro hfirst
  have hflush := hfirst false reject
    [.emplaceSink true, .publish .urgent (), .publish .normal ()] 0#64 0#64
  rcases settled_of_urgentFirst (after_delivering false reject _).sound.sinks hflush with ht | hset
  · exact absurd ht.1 Bool.false_ne_true
  · have hqueue : (after false reject
        [.emplaceSink true, .publish .urgent (), .publish .normal ()]).pendingRecords =
          [⟨⟨0, .urgent, ()⟩, 0#8⟩, ⟨⟨1, .normal, ()⟩, 0#8⟩] := rfl
    have hacc := hset 0 (by decide) ⟨⟨0, .urgent, ()⟩, 0#8⟩ (by rw [hqueue]; simp) rfl
      ⟨⟨1, .normal, ()⟩, 0#8⟩ (by rw [hqueue]; simp) rfl
    revert hacc
    decide

end StLib.Diagnostics.HubUrgency
