import StLib.Scheduler.TrueTime

/-! # Deadline order

In every run in time the queue is sorted by true deadline, and an interrupt marks
exactly the tasks whose deadline has come and leaves the rest in the future
(`deadline_order`). Runs in which the elapsed count and the period of a
registration stay below half the 32-bit range, and interrupts are served before
the counter moves, are in time (`ordinary_run`). The API admits more: the period
alone is bounded, so a deadline can lie beyond half the range of the tick, where
the signed differences change sign (`deadline_beyond_half_range`). -/
namespace StLib.Scheduler.Deadlines

open StLib.Base.Runs StLib.Base.SerialTime
open StLib.Scheduler.Model StLib.Scheduler.Queue StLib.Scheduler.Steps StLib.Scheduler.Invariant
open StLib.Scheduler.QueueInvariant StLib.Scheduler.TrueTime

/-! ## Steps in time -/

/-- The slot is still queued after the interrupt. -/
def stays (w : Timed) (i : Slot) : Prop :=
  w.deadline i ≤ w.fireTick → (w.st.tasks i).repeating = true

/-- The deadline of a slot that stays. -/
def nextDeadline (w : Timed) (i : Slot) : Nat :=
  if w.deadline i ≤ w.fireTick then w.fireTick + w.period i else w.deadline i

/-- The interrupt is served before the counter reaches the next deadline, or that
deadline is a single tick away. -/
def Served (w : Timed) (cnt : BitVec 32) : Prop :=
  (∃ i ∈ queue w.st, stays w i ∧ nextDeadline w i = w.fireTick + 1) ∨
    ∀ i ∈ queue w.st, stays w i → w.fireTick + cnt.toNat < nextDeadline w i

/-- The condition on a step. -/
def Timely (w : Timed) : TimedLabel → Prop
  | (cnt, .call c) => CallTimely w cnt c
  | (cnt, .timerInterrupt) => InterruptNear w (queue w.st) ∧ Served w cnt
  | (_, .update) => True

/-- The scheduler has been started and time counts from zero. -/
def start : Timed := { st := Model.initial }

theorem start_onTime : OnTime start [] :=
  ⟨.initial, rfl, by simp, List.Pairwise.nil⟩

theorem timely_interrupt {w : Timed} {q : List Slot} (h : OnTime w q) {cnt : BitVec 32}
    (hok : Timely w (cnt, .timerInterrupt)) :
    ∃ w' q', TimedStep w (cnt, .timerInterrupt) w' ∧ Fired w w' cnt q q' := by
  obtain ⟨near, -⟩ := hok
  rw [queue_eq h.consistent.holds] at near
  exact h.interrupt near cnt

/-- Every step in time can be taken and ends on time. -/
theorem timely_step {w : Timed} {q : List Slot} (h : OnTime w q) {l : TimedLabel}
    (hok : Timely w l) : ∃ w', TimedStep w l w' ∧ ∃ q', OnTime w' q' := by
  obtain ⟨cnt, op⟩ := l
  cases op with
  | call c =>
    obtain ⟨q', hc⟩ := h.call hok
    exact ⟨_, rfl, q', hc.onTime⟩
  | timerInterrupt =>
    obtain ⟨w', q', hs, hf⟩ := timely_interrupt h hok
    exact ⟨w', hs, q', hf.onTime⟩
  | update =>
    obtain ⟨w', hs, ho, -⟩ := h.update cnt
    exact ⟨w', hs, q, ho⟩

theorem timedStep_det {w u v : Timed} {l : TimedLabel} (hu : TimedStep w l u)
    (hv : TimedStep w l v) : u = v :=
  Option.some.inj (hu.symm.trans hv)

theorem timely_run {ls : List TimedLabel} {w : Timed} (r : Run TimedStep Timely start ls w) :
    ∃ q, OnTime w q := by
  refine r.invariant (P := fun w => ∃ q, OnTime w q) ⟨[], start_onTime⟩ ?_
  rintro t l u ⟨q, hq⟩ hok hs
  obtain ⟨u', hu', ho⟩ := timely_step hq hok
  exact timedStep_det hu' hs ▸ ho

/-! ## What an interrupt leaves -/

theorem rearmed_eq {w w' : Timed} {cnt : BitVec 32} {q q' : List Slot} (hf : Fired w w' cnt q q')
    {i : Slot} (hi : i ∈ q') : stays w i ∧ w'.deadline i = nextDeadline w i := by
  obtain ⟨hiq, hrep⟩ := (hf.mem i).mp hi
  refine ⟨hrep, ?_⟩
  rw [hf.deadline, Timed.rearmed, nextDeadline]
  simp only [List.mem_filter, hiq, decide_eq_true_eq, true_and]
  by_cases hd : w.deadline i ≤ w.fireTick
  · rw [if_pos ⟨hd, hrep hd⟩, if_pos hd]
  · rw [if_neg fun h => hd h.1, if_neg hd]

/-- The interrupt leaves every deadline after the tick exactly when it is served
in time. -/
theorem ahead_iff_served {w w' : Timed} {cnt : BitVec 32} {q q' : List Slot} (h : OnTime w q)
    (hf : Fired w w' cnt q q') : (∀ i ∈ q', w'.tick < w'.deadline i) ↔ Served w cnt := by
  have hmem : ∀ i, i ∈ q' ↔ i ∈ queue w.st ∧ stays w i := by
    intro i
    rw [queue_eq h.consistent.holds]
    exact hf.mem i
  have hnext : ∀ i ∈ q', w'.deadline i = nextDeadline w i := fun i hi => (rearmed_eq hf hi).2
  cases hq : q' with
  | nil =>
    subst hq
    simp only [List.not_mem_nil, false_imp_iff, implies_true, true_iff]
    exact .inr fun i hi hs => absurd ((hmem i).mpr ⟨hi, hs⟩) List.not_mem_nil
  | cons a l =>
    obtain ⟨-, htick⟩ := hf.head a l hq
    rw [← hq]
    have ha : a ∈ q' := by simp [hq]
    have hfirst : ∀ i ∈ q', w'.deadline a ≤ w'.deadline i := by
      intro i hi
      rw [hq] at hi
      rcases List.mem_cons.mp hi with rfl | hi
      · exact Nat.le_refl _
      · exact (List.pairwise_cons.mp (hq ▸ hf.onTime.sorted)).1 i hi
    have hahead := hf.ahead
    constructor
    · intro hall
      have hthis := hall a ha
      split at htick
      next hc =>
        rcases hc with hc | hc
        · exact .inl ⟨a, ((hmem a).mp ha).1, ((hmem a).mp ha).2, by rw [← hnext a ha, hc]⟩
        · refine .inr fun i hi hs => ?_
          have hi' := (hmem i).mpr ⟨hi, hs⟩
          rw [← hnext i hi']
          have := hfirst i hi'
          omega
      next hc =>
        -- the counter was added to the tick, which passes the head
        omega
    · intro hserved i hi
      have hle := hfirst i hi
      have hgt := (hahead a ha).1
      split at htick
      next => have := (hahead i hi).1; omega
      next hc =>
        rcases hserved with ⟨j, hj, hs, hjd⟩ | hs
        · have hj' := (hmem j).mpr ⟨hj, hs⟩
          have := hfirst j hj'
          rw [hnext j hj', hjd] at this
          omega
        · have := hs a ((hmem a).mp ha).1 ((hmem a).mp ha).2
          rw [← hnext a ha] at this
          omega

/-! ## Main results -/

/-- **Deadline order**: in every state of a run in time the queue is sorted by
true deadline and the stored deadlines are the true ones cut to 32 bits; an
interrupt in time marks exactly the queued tasks whose deadline has come, once
each and in order, and leaves every queued deadline after the tick. -/
theorem deadline_order {ls : List TimedLabel} {w : Timed}
    (r : Run TimedStep Timely start ls w) :
    (queue w.st).Pairwise (fun i j => w.deadline i ≤ w.deadline j) ∧
    (∀ i ∈ queue w.st, (w.st.tasks i).nextFireUs = BitVec.ofNat 32 (w.deadline i)) ∧
    (∀ cnt, Timely w (cnt, .timerInterrupt) → ∃ w', TimedStep w (cnt, .timerInterrupt) w' ∧
      w'.marks = w.marks ++
        ((queue w.st).filter fun i => w.deadline i ≤ w.fireTick).map (fun i => (w.fireTick, i)) ∧
      ∀ i ∈ queue w'.st, w'.tick < w'.deadline i) ∧
    ∀ l, Timely w l → ∃ w', TimedStep w l w' := by
  obtain ⟨q, hq⟩ := timely_run r
  have hqueue := queue_eq hq.consistent.holds
  refine ⟨hqueue ▸ hq.sorted, hqueue ▸ hq.fire, fun cnt hok => ?_, fun l hok => ?_⟩
  · obtain ⟨w', q', hs, hf⟩ := timely_interrupt hq hok
    refine ⟨w', hs, hqueue ▸ hf.marks, ?_⟩
    rw [queue_eq hf.onTime.consistent.holds]
    exact (ahead_iff_served hq hf).mpr hok.2
  · obtain ⟨w', hs, -⟩ := timely_step hq hok
    exact ⟨w', hs⟩

/-! ## Ordinary runs -/

/-- Every deadline is ahead of the tick by less than half the range and the timer
is armed for the head. -/
structure Ahead (w : Timed) (q : List Slot) : Prop where
  onTime : OnTime w q
  ahead : ∀ i ∈ q, w.tick < w.deadline i ∧ w.deadline i < w.tick + 2 ^ 31
  idle : q = [] → w.st.currentIntervalUs = 0#32
  head : ∀ a l, q = a :: l → w.st.currentIntervalUs.toNat = w.deadline a - w.tick

/-- The counter is below the programmed interval; an idle timer stands at zero. -/
def CountBelow (w : Timed) (cnt : BitVec 32) : Prop :=
  cnt = 0#32 ∨ cnt.toNat < w.st.currentIntervalUs.toNat

/-- A step as the hardware and the program usually take it. -/
def Ordinary (w : Timed) : TimedLabel → Prop
  | (cnt, .call c) => RemoveSafe (w.st.atCount cnt) c ∧ CountBelow w cnt ∧
      cnt.toNat + c.periodUs.toNat < 2 ^ 31
  | (cnt, .timerInterrupt) => cnt = 0#32
  | (_, .update) => True

theorem start_ahead : Ahead start [] :=
  ⟨start_onTime, by simp, fun _ => rfl, fun _ _ h => nomatch h⟩

namespace Ahead

variable {w : Timed} {q : List Slot} {cnt : BitVec 32} {c : Call}

/-- The counter has not reached any deadline. -/
theorem below (h : Ahead w q) (hc : CountBelow w cnt) {i : Slot} (hi : i ∈ q) :
    w.tick + cnt.toNat < w.deadline i := by
  have hahead := (h.ahead i hi).1
  rcases hc with rfl | hc
  · simpa using hahead
  · cases q with
    | nil => cases hi
    | cons a l =>
      rw [h.head a l rfl] at hc
      have : w.deadline a ≤ w.deadline i := by
        rcases List.mem_cons.mp hi with rfl | hi
        · exact Nat.le_refl _
        · exact (List.pairwise_cons.mp h.onTime.sorted).1 i hi
      omega

theorem callTimely (h : Ahead w q) (hok : Ordinary w (cnt, .call c)) : CallTimely w cnt c := by
  obtain ⟨safe, hc, hp⟩ := hok
  refine ⟨safe, fun slot _ j hj => ?_⟩
  rw [queue_eq h.onTime.consistent.holds] at hj
  have hlow := h.below hc hj
  have hhigh := (h.ahead j hj).2
  constructor <;> omega

/-- An ordinary call leaves every deadline ahead. -/
theorem call (h : Ahead w q) (hok : Ordinary w (cnt, .call c)) :
    ∃ q', Called w cnt c q q' ∧ Ahead (w.call cnt c) q' ∧ (w.call cnt c).tick = w.tick := by
  obtain ⟨q', hcalled⟩ := h.onTime.call (h.callTimely hok)
  obtain ⟨-, hc, hp⟩ := hok
  refine ⟨q', hcalled, ?_⟩
  have htick := h.onTime.tick
  -- the deadlines of the new queue, seen from the counter
  have hdl : ∀ i ∈ q', w.tick + cnt.toNat < (w.call cnt c).deadline i ∧
      (w.call cnt c).deadline i < w.tick + 2 ^ 31 := by
    intro i hi
    cases hadd : c.adds (w.st.atCount cnt) with
    | none =>
      have hiq := hcalled.kept hadd hi
      rw [Timed.call_deadline_none hadd]
      exact ⟨h.below hc hiq, (h.ahead i hiq).2⟩
    | some slot =>
      obtain ⟨-, hmem, hper, -⟩ := hcalled.added slot hadd
      by_cases he : i = slot
      · subst he
        have hfree := ((hcalled.onTime.consistent.queued i).mp hi).1
        have hpos := (hcalled.onTime.consistent.period i hfree).1
        rw [hper] at hpos
        rw [Timed.call_deadline_self hadd]
        omega
      · have hiq : i ∈ q := ((hmem i).mp hi).resolve_left he
        rw [Timed.call_deadline_of_ne hadd he]
        exact ⟨h.below hc hiq, (h.ahead i hiq).2⟩
  rcases hcalled.armed with ⟨hst, rfl⟩ | ⟨t, hst, htt, htc⟩
  · have hadd : c.adds (w.st.atCount cnt) = none := by
      cases hadd : c.adds (w.st.atCount cnt) with
      | none => rfl
      | some slot =>
        obtain ⟨hn, hmem, -⟩ := hcalled.added slot hadd
        exact absurd ((hmem slot).mpr (.inl rfl)) hn
    have hsame : (w.call cnt c).tick = w.tick :=
      tick_add_elapsed (t := (w.call cnt c).st) htick (by rw [hst]; exact htick)
        (Nat.le_refl _) (by omega)
    refine ⟨⟨hcalled.onTime, ?_, ?_, ?_⟩, hsame⟩
    · rw [hsame, Timed.call_deadline_none hadd]
      exact h.ahead
    · rw [hst]; exact h.idle
    · rw [hst, hsame, Timed.call_deadline_none hadd]; exact h.head
  · have hh : Holds t q' := by
      have hh' := hcalled.onTime.consistent.holds
      rw [hst] at hh'
      exact hh'.congr (by simp) (by simp)
    cases q' with
    | nil =>
      obtain ⟨hint, hsame⟩ := schedule_empty hh
      have hsame : (w.call cnt c).tick = w.tick :=
        tick_add_elapsed (t := (w.call cnt c).st) htick (by rw [hst, hsame, htt, htick])
          (Nat.le_refl _) (by omega)
      exact ⟨⟨hcalled.onTime, by simp, fun _ => by rw [hst, hint], fun _ _ h => nomatch h⟩, hsame⟩
    | cons a l =>
      have hfire := hcalled.onTime.fire a (by simp)
      rw [hst, scheduleNextInterval_tasks] at hfire
      obtain ⟨hlow, hhigh⟩ := hdl a (by simp)
      obtain ⟨hint, hsame⟩ := schedule_ahead hh hfire (htt.trans htick) (by omega) hhigh
      rw [if_pos (.inr (by rw [htc]; omega))] at hsame
      have hsame : (w.call cnt c).tick = w.tick :=
        tick_add_elapsed (t := (w.call cnt c).st) htick (by rw [hst, hsame, htt, htick])
          (Nat.le_refl _) (by omega)
      refine ⟨⟨hcalled.onTime, ?_, by simp, ?_⟩, hsame⟩
      · intro i hi
        rw [hsame]
        have := hdl i hi
        omega
      · intro a' l' he
        cases he
        rw [hst, hint, hsame, BitVec.toNat_ofNat, Nat.mod_eq_of_lt (by omega)]

/-- The programmed interval ends at the head's deadline. -/
theorem fireTick_head {a : Slot} {l : List Slot} (h : Ahead w (a :: l)) :
    w.fireTick = w.deadline a := by
  have := (h.ahead a (by simp)).1
  rw [Timed.fireTick, h.head a l rfl]
  omega

theorem fireTick_le (h : Ahead w q) {i : Slot} (hi : i ∈ q) :
    w.tick < w.fireTick ∧ w.fireTick ≤ w.deadline i := by
  cases q with
  | nil => cases hi
  | cons a l =>
    rw [h.fireTick_head]
    refine ⟨(h.ahead a (by simp)).1, ?_⟩
    rcases List.mem_cons.mp hi with rfl | hi
    · exact Nat.le_refl _
    · exact (List.pairwise_cons.mp h.onTime.sorted).1 i hi

theorem interruptNear (h : Ahead w q) : InterruptNear w q := by
  refine ⟨fun i hi => ?_, fun i hi j hj _ hdi hdj => ?_⟩
  · have := h.fireTick_le hi
    have := h.ahead i hi
    constructor <;> omega
  · have := h.fireTick_le hj
    have := (h.onTime.consistent.period i ((h.onTime.consistent.queued i).mp hi).1).2
    unfold Timed.period
    omega

/-- An interrupt served before the counter moves leaves every deadline ahead. -/
theorem interrupt (h : Ahead w q) :
    ∃ w' q', TimedStep w (0#32, .timerInterrupt) w' ∧ Fired w w' 0#32 q q' ∧ Ahead w' q' ∧
      w'.tick = w.fireTick := by
  obtain ⟨w', q', hs, hf⟩ := h.onTime.interrupt h.interruptNear 0#32
  refine ⟨w', q', hs, hf, ?_⟩
  have htick : w'.tick = w.fireTick := by
    cases hq : q' with
    | nil => exact (hf.idle hq).2
    | cons a l =>
      rw [(hf.head a l hq).2, if_pos]
      have := (hf.ahead a (by simp [hq])).1
      exact .inr (by simp; omega)
  refine ⟨⟨hf.onTime, ?_, fun hq => (hf.idle hq).1, fun a l hq => ?_⟩, htick⟩
  · rw [htick]; exact hf.ahead
  · have := hf.ahead a (by simp [hq])
    rw [(hf.head a l hq).1, htick, BitVec.toNat_ofNat, Nat.mod_eq_of_lt (by omega)]

/-- An update leaves every deadline ahead. -/
theorem update (h : Ahead w q) (cnt : BitVec 32) :
    ∃ w', TimedStep w (cnt, .update) w' ∧ Ahead w' q ∧ w'.tick = w.tick ∧
      w'.deadline = w.deadline ∧ w'.marks = w.marks ∧ w'.st.tasks = w.st.tasks := by
  obtain ⟨w', hs, ho, htick, hdl, hmarks, hint, htasks⟩ := h.onTime.update cnt
  refine ⟨w', hs, ⟨ho, ?_, ?_, ?_⟩, htick, hdl, hmarks, htasks⟩
  · rw [htick, hdl]; exact h.ahead
  · rw [hint]; exact h.idle
  · rw [hint, hdl, htick]; exact h.head

/-- An ordinary step is in time. -/
theorem timely (h : Ahead w q) {l : TimedLabel} (hok : Ordinary w l) : Timely w l := by
  obtain ⟨cnt, op⟩ := l
  cases op with
  | call c => exact h.callTimely hok
  | timerInterrupt =>
    obtain rfl : cnt = 0#32 := hok
    obtain ⟨w', q', -, hf, ha, htick⟩ := h.interrupt
    refine ⟨queue_eq h.onTime.consistent.holds ▸ h.interruptNear,
      (ahead_iff_served h.onTime hf).mp fun i hi => (ha.ahead i hi).1⟩
  | update => trivial

theorem step (h : Ahead w q) {l : TimedLabel} (hok : Ordinary w l) {w' : Timed}
    (hs : TimedStep w l w') : ∃ q', Ahead w' q' := by
  obtain ⟨cnt, op⟩ := l
  cases op with
  | call c =>
    obtain ⟨q', -, ha, -⟩ := h.call hok
    exact ⟨q', timedStep_det (show TimedStep w (cnt, .call c) (w.call cnt c) from rfl) hs ▸ ha⟩
  | timerInterrupt =>
    obtain rfl : cnt = 0#32 := hok
    obtain ⟨u, q', hu, -, ha, -⟩ := h.interrupt
    exact ⟨q', timedStep_det hu hs ▸ ha⟩
  | update =>
    obtain ⟨u, hu, ha, -⟩ := h.update cnt
    exact ⟨q, timedStep_det hu hs ▸ ha⟩

end Ahead

/-- **An ordinary run is in time**: elapsed count and period of every registration
below half the range, the counter below the programmed interval at every call,
and every interrupt served before the counter moves. -/
theorem ordinary_run {ls : List TimedLabel} {w : Timed} (r : Run TimedStep Ordinary start ls w) :
    Run TimedStep Timely start ls w ∧ ∃ q, Ahead w q := by
  induction r with
  | nil => exact ⟨.nil _, [], start_ahead⟩
  | snoc _ hok hs ih =>
    obtain ⟨r, q, h⟩ := ih
    exact ⟨.snoc r (h.timely hok) hs, h.step hok hs⟩

/-! ## Past half the range -/

/-- A task that repeats every 2³¹ − 1 µs in slot 0, from tick 0. -/
def longTask : Timed where
  st := { Model.initial with
    tasks := Function.update (fun _ => {}) 0 ⟨0x7FFFFFFF#32, some 0, 0x7FFFFFFF#32, 0#16, true⟩
    activeTaskCount := 1#32
    freeBitmap := 0xFFFFFFFE#32
    currentIntervalUs := 0x7FFFFFFF#32
    timer := ⟨0#32, 0x7FFFFFFE#32, true, false⟩ }
  deadline := Function.update (fun _ => 0) 0 0x7FFFFFFF

/-- One microsecond before it fires, a task that repeats every 4 µs in slot 1. -/
def lateTask : Timed where
  st := { longTask.st with
    tasks := Function.update (longTask.st.tasks) 1 ⟨0x80000002#32, some 1, 4#32, 1#16, true⟩
    sortedTaskIds := 0x10#64
    activeTaskCount := 2#32
    freeBitmap := 0xFFFFFFFC#32
    timer := ⟨0x7FFFFFFE#32, 0x7FFFFFFE#32, true, false⟩ }
  deadline := Function.update longTask.deadline 1 0x80000002

/-- Slot 0 is unregistered: the remaining deadline is 2³¹ + 2 µs after the tick,
its signed distance is negative, and the counter goes into the tick. -/
def lateAlone : Timed where
  st := { lateTask.st with
    sortedTaskIds := 0x1#64
    activeTaskCount := 1#32
    freeBitmap := 0xFFFFFFFD#32
    globalTickUs := 0x7FFFFFFE#64
    currentIntervalUs := 0x7FFFFFFE#32
    timer := ⟨0#32, 0x7FFFFFFD#32, true, false⟩ }
  tick := 0x7FFFFFFE
  deadline := lateTask.deadline

def timedAgrees (w w' : Timed) : Bool :=
  agrees w.st w'.st && decide (w.tick = w'.tick) && decide (∀ i, w.deadline i = w'.deadline i) &&
    decide (w.marks = w'.marks)

theorem timedStep_of_agrees {w w' : Timed} {l : TimedLabel}
    (h : (w.run l).map (timedAgrees w') = some true) : TimedStep w l w' := by
  obtain ⟨u, hu, he⟩ := Option.map_eq_some_iff.mp h
  simp only [timedAgrees, Bool.and_eq_true, decide_eq_true_eq] at he
  obtain ⟨⟨⟨hst, htick⟩, hdl⟩, hmarks⟩ := he
  have : w' = u := by
    cases w'
    cases u
    simp only [Timed.mk.injEq]
    exact ⟨eq_of_agrees hst, htick, funext hdl, hmarks⟩
  rw [this]
  exact hu

theorem step_longTask : TimedStep start
    (0#32, .call (.registerTask 0x7FFFFFFF#32 (some 0))) longTask :=
  timedStep_of_agrees (by decide +kernel)

theorem step_lateTask : TimedStep longTask
    (0x7FFFFFFE#32, .call (.registerTask 4#32 (some 1))) lateTask :=
  timedStep_of_agrees (by decide +kernel)

theorem step_lateAlone : TimedStep lateTask
    (0x7FFFFFFE#32, .call (.unregisterTask 0#16)) lateAlone :=
  timedStep_of_agrees (by decide +kernel)

instance (w : Timed) (cnt : BitVec 32) : Decidable (CountBelow w cnt) :=
  inferInstanceAs (Decidable (_ ∨ _))

/-- **Half the range is passed by periods the API accepts**: with the counter
below the programmed interval at every call, the queue comes out of order. -/
theorem deadline_beyond_half_range :
    ¬ ∀ ls w, Run TimedStep (fun w l => CountBelow w l.1) start ls w →
      (queue w.st).Pairwise fun i j => w.deadline i ≤ w.deadline j := by
  intro h
  have hlast : (lateAlone.run (0x7FFFFFFD#32, .call (.registerTask 0x7FFFFFFF#32 (some 2)))).map
      (fun w => (queue w.st, decide (w.deadline 1 < w.deadline 0))) = some ([0, 1], true) := by
    decide +kernel
  obtain ⟨w, hw, he⟩ := Option.map_eq_some_iff.mp hlast
  obtain ⟨hqueue, hlt⟩ := Prod.mk.inj he
  have hsorted := h _ w (.snoc (.snoc (.snoc (.single (by decide) step_longTask)
    (by decide) step_lateTask) (by decide) step_lateAlone) (by decide) hw)
  rw [hqueue] at hsorted
  have := (List.pairwise_cons.mp hsorted).1 1 (by simp)
  have := of_decide_eq_true hlt
  omega

/-- Two registrations below half the range: the queue is sorted. -/
theorem deadline_order_two_tasks :
    (queue (longTask.call 0x7FFFFFF0#32 (.registerTask 4#32 (some 1))).st).Pairwise fun i j =>
      (longTask.call 0x7FFFFFF0#32 (.registerTask 4#32 (some 1))).deadline i ≤
        (longTask.call 0x7FFFFFF0#32 (.registerTask 4#32 (some 1))).deadline j := by
  have first : Run TimedStep Ordinary start [(0#32, .call (.registerTask 0x7FFFFFFF#32 (some 0)))]
      longTask := .single ⟨removeSafe_registerTask _ _ _, .inl rfl, by decide⟩ step_longTask
  have second : Ordinary longTask (0x7FFFFFF0#32, .call (.registerTask 4#32 (some 1))) :=
    ⟨removeSafe_registerTask _ _ _, .inr (by decide), by decide⟩
  exact (deadline_order (ordinary_run (.snoc first second rfl)).1).1

end StLib.Scheduler.Deadlines
