import StLib.Base.SerialTime
import StLib.Scheduler.QueueInvariant

/-! # Unwrapped time

The scheduler keeps its tick in 64 bits and its deadlines in 32. `Timed` carries
beside the state what they stand for: the tick and the deadlines as they would be
without a limit, and the log of what was marked ready and at which tick. The
ghost values follow the code's own sums; no operation reads them. `OnTime` says
that the stored values are their images and the queue is sorted by the true
deadlines. -/
namespace StLib.Scheduler.TrueTime

open StLib.Base.Runs StLib.Base.NibbleWord StLib.Base.SerialTime StLib.Base.SortedQueue
open StLib.Scheduler.Model StLib.Scheduler.Queue StLib.Scheduler.Steps StLib.Scheduler.Invariant
open StLib.Scheduler.QueueInvariant

structure Timed where
  st : State
  tick : Nat := 0
  deadline : Slot → Nat := fun _ => 0
  marks : List (Nat × Slot) := []

/-- How far the tick moved from `s` to `t`. -/
def elapsed (s t : State) : Nat := (t.globalTickUs - s.globalTickUs).toNat

namespace Timed

/-- The period of a slot. -/
def period (w : Timed) (i : Slot) : Nat := (w.st.tasks i).periodUs.toNat

/-- The tick the programmed interval ends at. -/
def fireTick (w : Timed) : Nat := w.tick + w.st.currentIntervalUs.toNat

/-- A call; the deadline of a task it adds is the time it is added at and the
period. -/
def call (w : Timed) (cnt : BitVec 32) (c : Call) : Timed :=
  let s := w.st.atCount cnt
  { w with
    st := c.run s
    tick := w.tick + elapsed w.st (c.run s)
    deadline := match c.adds s with
      | some slot => Function.update w.deadline slot (w.tick + cnt.toNat + c.periodUs.toNat)
      | none => w.deadline }

/-- The deadline of slot `i` once the slots `l` have been marked: a repeating one
starts its next period at the tick of the interrupt. -/
def rearmed (w : Timed) (l : List Slot) (i : Slot) : Nat :=
  if i ∈ l ∧ (w.st.tasks i).repeating = true then w.fireTick + w.period i else w.deadline i

/-- A timer interrupt. -/
def interrupt (w : Timed) (cnt : BitVec 32) : Option Timed :=
  (onTimerUpdate (w.st.atCount cnt)).map fun r =>
    { st := r.1
      tick := w.tick + elapsed w.st r.1
      deadline := w.rearmed r.2
      marks := w.marks ++ r.2.map fun i => (w.fireTick, i) }

/-- An update whose callbacks leave the scheduler alone. -/
def update (w : Timed) (cnt : BitVec 32) : Option Timed :=
  (Model.update (fun _ => []) (w.st.atCount cnt)).map fun r =>
    { w with st := r.1, tick := w.tick + elapsed w.st r.1 }

end Timed

inductive TimedOp
  | call (c : Call)
  | timerInterrupt
  | update

/-- An operation with the counter it finds. -/
abbrev TimedLabel := BitVec 32 × TimedOp

def Timed.run (w : Timed) : TimedLabel → Option Timed
  | (cnt, .call c) => some (w.call cnt c)
  | (cnt, .timerInterrupt) => w.interrupt cnt
  | (cnt, .update) => w.update cnt

def TimedStep (w : Timed) (l : TimedLabel) (w' : Timed) : Prop := w.run l = some w'

/-! ## The stored values are images of the true ones -/

/-- The queue of `w` is `q`, sorted by true deadline, and the stored tick and
deadlines are the true ones cut to their width. -/
structure OnTime (w : Timed) (q : List Slot) : Prop where
  consistent : Consistent w.st q
  tick : w.st.globalTickUs = BitVec.ofNat 64 w.tick
  fire : ∀ i ∈ q, (w.st.tasks i).nextFireUs = BitVec.ofNat 32 (w.deadline i)
  sorted : q.Pairwise fun i j => w.deadline i ≤ w.deadline j

theorem ofNat_elapsed {s t : State} {n : Nat} (h : s.globalTickUs = BitVec.ofNat 64 n) :
    t.globalTickUs = BitVec.ofNat 64 (n + elapsed s t) := by
  rw [BitVec.ofNat_add, ← h, elapsed, BitVec.ofNat_toNat, BitVec.setWidth_eq, BitVec.add_comm,
    BitVec.sub_add_cancel]

theorem low_ofNat (n : Nat) : (BitVec.ofNat 64 n).setWidth 32 = BitVec.ofNat 32 n := by
  apply BitVec.eq_of_toNat_eq
  simp only [BitVec.toNat_setWidth, BitVec.toNat_ofNat]
  omega

/-- A deadline summed in 64 bits and cut to 32. -/
theorem low_add (n : Nat) (p : BitVec 32) :
    (BitVec.ofNat 64 n + p.setWidth 64).setWidth 32 = BitVec.ofNat 32 (n + p.toNat) := by
  rw [← low_ofNat, BitVec.ofNat_add]
  congr 2
  apply BitVec.eq_of_toNat_eq
  simp

/-! ## Insertion by deadline -/

/-- With every deadline it is compared to near its own, `insert_sorted` keeps the
queue sorted by true deadline. -/
theorem insert_ordered {s : State} {q : List Slot} {D : Slot → Nat} {slot : Slot} (h : Holds s q)
    (fire : ∀ i ∈ q, (s.tasks i).nextFireUs = BitVec.ofNat 32 (D i))
    (hslot : (s.tasks slot).nextFireUs = BitVec.ofNat 32 (D slot))
    (near : ∀ j ∈ q, Near 32 (D slot) (D j)) (sorted : q.Pairwise fun i j => D i ≤ D j) :
    (q.insertIdx (insertPos s slot) slot).Pairwise fun i j => D i ≤ D j := by
  have hpos := insertPos_le h slot
  have htest : ∀ i (hi : i < q.length),
      decide (0 ≤ ((s.tasks slot).nextFireUs -
        (s.tasks (getAt s (BitVec.ofNat 8 i))).nextFireUs).toInt) = true ↔ D q[i] ≤ D slot := by
    intro i hi
    have hm := List.getElem_mem hi
    rw [decide_eq_true_iff, h.getAt hi, hslot, fire _ hm,
      sub_nonneg_iff (by decide) (near _ hm)]
  obtain ⟨hbefore, hafter⟩ := search_spec
    (fun mid => decide (0 ≤ ((s.tasks slot).nextFireUs -
      (s.tasks (getAt s (BitVec.ofNat 8 mid))).nextFireUs).toInt))
    32 0 s.activeTaskCount.toNat (Nat.zero_le _) (by have := s.activeTaskCount.isLt; omega) (by
      intro i j _ hij hj htj
      rw [h.toNat] at hj
      rw [htest i (by omega)]
      rw [htest j hj] at htj
      rcases Nat.lt_or_ge i j with hlt | hge
      · exact Nat.le_trans (List.pairwise_iff_getElem.mp sorted i j (by omega) hj hlt) htj
      · obtain rfl : i = j := by omega
        exact htj)
  apply pairwise_insertIdx sorted hpos
  · intro a ha
    obtain ⟨i, hi, rfl⟩ := List.getElem_of_mem ha
    rw [List.length_take] at hi
    rw [List.getElem_take]
    exact (htest i (by omega)).mp (hbefore i (Nat.zero_le _) (by unfold insertPos at hi; omega))
  · intro a ha
    obtain ⟨i, hi, rfl⟩ := List.getElem_of_mem ha
    rw [List.length_drop] at hi
    rw [List.getElem_drop]
    have hfalse := hafter (insertPos s slot + i) (Nat.le_add_right ..) (by rw [h.toNat]; omega)
    have hnot := mt (htest (insertPos s slot + i) (by omega)).mpr (by rw [hfalse]; decide)
    omega

/-! ## Calls -/

/-- A registration in time: the true deadline of the new task is within half the
32-bit range of every queued one. -/
def CallTimely (w : Timed) (cnt : BitVec 32) (c : Call) : Prop :=
  RemoveSafe (w.st.atCount cnt) c ∧
  ∀ slot, c.adds (w.st.atCount cnt) = some slot → ∀ j ∈ queue w.st,
    Near 32 (w.tick + cnt.toNat + c.periodUs.toNat) (w.deadline j)

/-- What a call in time does to a queue: it adds the slot it claims, or removes at
most one, and arms the timer from the tick and the counter it found. -/
structure Called (w : Timed) (cnt : BitVec 32) (c : Call) (q q' : List Slot) : Prop where
  onTime : OnTime (w.call cnt c) q'
  added : ∀ slot, c.adds (w.st.atCount cnt) = some slot →
    slot ∉ q ∧ (∀ i, i ∈ q' ↔ i = slot ∨ i ∈ q) ∧
    ((w.call cnt c).st.tasks slot).periodUs = c.periodUs ∧
    ∀ i, i ≠ slot → (w.call cnt c).st.tasks i = w.st.tasks i
  kept : c.adds (w.st.atCount cnt) = none → q' ⊆ q
  armed : ((w.call cnt c).st = w.st.atCount cnt ∧ q' = q) ∨
    ∃ t, (w.call cnt c).st = scheduleNextInterval t ∧ t.globalTickUs = w.st.globalTickUs ∧
      t.timer.cnt = cnt

theorem Timed.call_deadline_none {w : Timed} {cnt : BitVec 32} {c : Call}
    (h : c.adds (w.st.atCount cnt) = none) : (w.call cnt c).deadline = w.deadline := by
  simp [Timed.call, h]

theorem Timed.call_deadline_self {w : Timed} {cnt : BitVec 32} {c : Call} {slot : Slot}
    (h : c.adds (w.st.atCount cnt) = some slot) :
    (w.call cnt c).deadline slot = w.tick + cnt.toNat + c.periodUs.toNat := by
  simp [Timed.call, h]

theorem Timed.call_deadline_of_ne {w : Timed} {cnt : BitVec 32} {c : Call} {slot i : Slot}
    (h : c.adds (w.st.atCount cnt) = some slot) (hi : i ≠ slot) :
    (w.call cnt c).deadline i = w.deadline i := by
  simp [Timed.call, h, hi]

/-- **A call in time** keeps the queue sorted by true deadline. -/
theorem OnTime.call {w : Timed} {q : List Slot} (h : OnTime w q) {cnt : BitVec 32} {c : Call}
    (hc : CallTimely w cnt c) : ∃ q', Called w cnt c q q' := by
  obtain ⟨safe, near⟩ := hc
  have hs := h.consistent.atCount cnt
  have htick : (w.call cnt c).st.globalTickUs = BitVec.ofNat 64 (w.call cnt c).tick :=
    ofNat_elapsed h.tick
  rw [queue_eq h.consistent.holds] at near
  rcases Call.run_cases c (w.st.atCount cnt) with
    ⟨hrun, -, hadd⟩ | ⟨slot, task, idx, hf, hp, hper, -, hadd, hrun⟩ | ⟨slot, hf, hrem, hadd, hrun⟩
  · have hst : (w.call cnt c).st = w.st.atCount cnt := hrun
    have hdl := Timed.call_deadline_none hadd
    refine ⟨q, ⟨hst ▸ hs, htick, ?_, ?_⟩, by simp [hadd], fun _ => List.Subset.refl q,
      .inl ⟨hst, rfl⟩⟩
    · rw [hst, hdl]; exact h.fire
    · rw [hdl]; exact h.sorted
  · have hst : (w.call cnt c).st = _ := hrun
    rw [armTask_claimSlot] at hst
    have hm := hs.notQueued_of_free hf
    have hne : ∀ i ∈ q, i ≠ slot := fun i hi he => hm (he ▸ hi)
    have hnew := Timed.call_deadline_self hadd
    have hdl : ∀ i ∈ q, (w.call cnt c).deadline i = w.deadline i := fun i hi =>
      Timed.call_deadline_of_ne hadd (hne i hi)
    have htasks : (w.call cnt c).st.tasks = (armed (w.st.atCount cnt) slot task idx).tasks := by
      rw [hst, scheduleNextInterval_tasks]
      rfl
    have hfire : ∀ i ∈ q, ((armed (w.st.atCount cnt) slot task idx).tasks i).nextFireUs =
        BitVec.ofNat 32 ((w.call cnt c).deadline i) := by
      intro i hi
      rw [armed_tasks_of_ne (hne i hi), hdl i hi]
      exact h.fire i hi
    have hslot : ((armed (w.st.atCount cnt) slot task idx).tasks slot).nextFireUs =
        BitVec.ofNat 32 ((w.call cnt c).deadline slot) := by
      rw [armed_tasks_self, hnew, ← hper, ← low_add, BitVec.ofNat_add, ← h.tick]
      apply BitVec.eq_of_toNat_eq
      simp [State.atCount]
    have hh : Holds (armed (w.st.atCount cnt) slot task idx) q := hs.holds.congr rfl rfl
    have hmem : ∀ i, i ∈ q.insertIdx (insertPos (armed (w.st.atCount cnt) slot task idx) slot) slot ↔
        i = slot ∨ i ∈ q := fun i => List.mem_insertIdx (insertPos_le hh slot)
    have hc' := hs.arm hf hp idx
    rw [armTask_claimSlot, ← hst] at hc'
    refine ⟨_, ⟨hc', htick, ?_, ?_⟩, ?_, by simp [hadd], .inr ⟨_, hst, rfl, rfl⟩⟩
    · intro i hi
      rw [htasks]
      rcases (hmem i).mp hi with rfl | hi
      · exact hslot
      · exact hfire i hi
    · refine insert_ordered hh hfire hslot (fun j hj => ?_) ?_
      · rw [hnew, hdl j hj]
        exact near slot hadd j hj
      · refine h.sorted.imp_of_mem fun hi hj hij => ?_
        rw [hdl _ hi, hdl _ hj]
        exact hij
    · intro slot' he
      obtain rfl : slot = slot' := Option.some.inj (hadd.symm.trans he)
      refine ⟨hm, hmem, by rw [htasks, armed_tasks_self, hper], fun i hi => ?_⟩
      rw [htasks, armed_tasks_of_ne hi]
      rfl
  · have hst : (w.call cnt c).st = _ := hrun
    have hdl := Timed.call_deadline_none hadd
    refine ⟨_, ⟨hst.symm ▸ hs.drop hf fun h0 => safe (h0 ▸ hrem), htick, fun i hi => ?_, ?_⟩,
      by simp [hadd], fun _ => List.erase_subset, .inr ⟨_, hst, ?_, ?_⟩⟩
    · rw [hst, hdl, dropTask_tasks]
      exact h.fire i (List.mem_of_mem_erase hi)
    · rw [hdl]
      exact h.sorted.sublist List.erase_sublist
    · simp [releaseSlot, State.atCount]
    · simp [releaseSlot, State.atCount]

/-! ## The timer interrupt -/

/-- The due test and the insertions of an interrupt compare within half the
32-bit range. -/
structure InterruptNear (w : Timed) (q : List Slot) : Prop where
  due : ∀ i ∈ q, Near 32 (w.deadline i) w.fireTick
  rearm : ∀ i ∈ q, ∀ j ∈ q, (w.st.tasks i).repeating = true → w.deadline i ≤ w.fireTick →
    w.deadline j ≤ w.fireTick → w.fireTick + w.period i < w.deadline j + 2 ^ 31

/-- Where the loop of an interrupt on the queue `q₀` stands in the state `s`, with
the slots `l` marked and the queue `q`. -/
structure Firing (w : Timed) (cnt : BitVec 32) (q₀ : List Slot) (s : State) (l q : List Slot) :
    Prop where
  consistent : Consistent s q
  count : s.timer.cnt = cnt
  tick : s.globalTickUs = BitVec.ofNat 64 w.fireTick
  same : ∀ i, (s.tasks i).periodUs = (w.st.tasks i).periodUs ∧
    (s.tasks i).repeating = (w.st.tasks i).repeating ∧
    (s.tasks i).callback = (w.st.tasks i).callback
  fire : ∀ i ∈ q, (s.tasks i).nextFireUs = BitVec.ofNat 32 (w.rearmed l i)
  sorted : q.Pairwise fun i j => w.rearmed l i ≤ w.rearmed l j
  near : ∀ i ∈ q, Near 32 (w.rearmed l i) w.fireTick
  marked : l ++ q.filter (fun i => w.rearmed l i ≤ w.fireTick) =
    q₀.filter fun i => w.deadline i ≤ w.fireTick
  rest : ∀ i, i ∈ q ↔ i ∈ q₀ ∧ (i ∈ l → (w.st.tasks i).repeating = true)

theorem filter_insertIdx {p : Slot → Bool} {a : Slot} (ha : p a = false) {q : List Slot} {n : Nat}
    (hn : n ≤ q.length) : (q.insertIdx n a).filter p = q.filter p := by
  rw [insertIdx_eq_append a q n hn, List.filter_append, List.filter_cons, ha]
  simp [← List.filter_append]

namespace Firing

variable {w : Timed} {cnt : BitVec 32} {q₀ : List Slot} {s : State} {l q : List Slot} {a : Slot}

theorem start (h : OnTime w q₀) (near : InterruptNear w q₀) :
    Firing w cnt q₀ { w.st.atCount cnt with
      globalTickUs := w.st.globalTickUs + w.st.currentIntervalUs.setWidth 64 } [] q₀ := by
  have hre : w.rearmed [] = w.deadline := by
    funext i
    simp [Timed.rearmed]
  refine ⟨h.consistent.congr rfl rfl rfl rfl rfl, rfl, ?_, fun i => ⟨rfl, rfl, rfl⟩, ?_, ?_, ?_, ?_, ?_⟩
  · show w.st.globalTickUs + _ = _
    rw [h.tick, Timed.fireTick, BitVec.ofNat_add]
    congr 1
    apply BitVec.eq_of_toNat_eq
    simp
  · rw [hre]; exact h.fire
  · rw [hre]; exact h.sorted
  · rw [hre]; exact near.due
  · rw [hre]; rfl
  · simp

/-- The due test of the code reads the true deadline. -/
theorem due_iff (h : Firing w cnt q₀ s l q) (ha : a ∈ q) :
    Invariant.due s a = true ↔ w.rearmed l a ≤ w.fireTick := by
  rw [Invariant.due, decide_eq_true_iff, h.fire a ha, h.tick, low_ofNat, ← Int.not_lt,
    sub_pos_iff (by decide) (h.near a ha), Nat.not_lt]

/-- A due slot of the queue was due before the loop and has not been marked. -/
theorem due_fresh (h : Firing w cnt q₀ s l q) (hnd : q₀.Nodup) (ha : a ∈ q)
    (hd : w.rearmed l a ≤ w.fireTick) : a ∉ l ∧ a ∈ q₀ ∧ w.deadline a ≤ w.fireTick := by
  have hm : a ∈ q.filter fun i => w.rearmed l i ≤ w.fireTick :=
    List.mem_filter.mpr ⟨ha, by simpa using hd⟩
  have hall : (l ++ q.filter fun i => w.rearmed l i ≤ w.fireTick).Nodup := by
    rw [h.marked]
    exact hnd.filter _
  have hin : a ∈ q₀.filter fun i => w.deadline i ≤ w.fireTick := by
    rw [← h.marked]
    exact List.mem_append_right _ hm
  obtain ⟨hin, hdue⟩ := List.mem_filter.mp hin
  exact ⟨fun hl => (List.nodup_append.mp hall).2.2 a hl a hm rfl, hin, by simpa using hdue⟩

theorem rearmed_snoc_of_ne {i : Slot} (hi : i ≠ a) : w.rearmed (l ++ [a]) i = w.rearmed l i := by
  simp [Timed.rearmed, hi]

theorem rearmed_snoc_self (hr : (w.st.tasks a).repeating = true) :
    w.rearmed (l ++ [a]) a = w.fireTick + w.period a := by
  simp [Timed.rearmed, hr]

/-- Firing a due head keeps the loop's invariant. -/
theorem step (h : Firing w cnt q₀ s l (a :: q)) (near : InterruptNear w q₀) (hnd : q₀.Nodup)
    (hd : Invariant.due s a = true) :
    Firing w cnt q₀ (fireHead s) (l ++ [a]) (firedQueue s a q) := by
  have hdl := (h.due_iff (by simp)).mp hd
  obtain ⟨hal, haq, hda⟩ := h.due_fresh hnd (by simp) hdl
  obtain ⟨hm, hndq⟩ := List.nodup_cons.mp h.consistent.nodup
  have hne : ∀ i ∈ q, i ≠ a := fun i hi he => hm (he ▸ hi)
  have hh : Holds (fired s a) q := h.consistent.holds.pop.congr rfl rfl
  have hpos := insertPos_le hh a
  obtain ⟨hper, hrep, -⟩ := h.same a
  have hgood := h.consistent.period a ((h.consistent.queued a).mp (by simp)).1
  have hp0 : 0 < w.period a := by rw [Timed.period, ← hper]; exact hgood.1
  have hp1 : w.period a < 2 ^ 31 := by rw [Timed.period, ← hper]; exact hgood.2
  have htasks : (fireHead s).tasks = (fired s a).tasks := by
    rw [fireHead_eq h.consistent.holds.front]; split <;> rfl
  have hold : ∀ i ∈ q, ((fired s a).tasks i).nextFireUs =
      BitVec.ofNat 32 (w.rearmed (l ++ [a]) i) := by
    intro i hi
    rw [fired_tasks_of_ne (hne i hi), rearmed_snoc_of_ne (hne i hi)]
    exact h.fire i (List.mem_cons_of_mem _ hi)
  have hnew : (s.tasks a).repeating = true → ((fired s a).tasks a).nextFireUs =
      BitVec.ofNat 32 (w.rearmed (l ++ [a]) a) := by
    intro hr
    rw [fired_tasks_self, refired, if_pos hr, rearmed_snoc_self (hrep ▸ hr), Timed.period, ← hper,
      ← low_add, ← h.tick]
  have hsorted : q.Pairwise fun i j => w.rearmed (l ++ [a]) i ≤ w.rearmed (l ++ [a]) j := by
    refine (List.pairwise_cons.mp h.sorted).2.imp_of_mem fun hi hj hij => ?_
    rw [rearmed_snoc_of_ne (hne _ hi), rearmed_snoc_of_ne (hne _ hj)]
    exact hij
  refine ⟨h.consistent.fireHead, ?_, ?_, fun i => ?_, fun i hi => ?_, ?_, fun i hi => ?_, ?_,
    fun i => ?_⟩
  · rw [fireHead_eq h.consistent.holds.front]
    split <;> exact h.count
  · rw [fireHead_eq h.consistent.holds.front]
    split <;> exact h.tick
  · rw [htasks]
    by_cases hi : i = a
    · subst hi
      rw [fired_tasks_self, refired_periodUs, refired_repeating, refired_callback]
      exact h.same i
    · rw [fired_tasks_of_ne hi]
      exact h.same i
  · rw [htasks]
    rcases (mem_firedQueue h.consistent).mp hi with ⟨rfl, hr⟩ | hi
    · exact hnew hr
    · exact hold i hi
  · unfold firedQueue
    split
    next hr =>
      refine insert_ordered hh hold (hnew hr) (fun j hj => ?_) hsorted
      rw [rearmed_snoc_self (hrep ▸ hr), rearmed_snoc_of_ne (hne j hj)]
      have hj' := h.near j (List.mem_cons_of_mem _ hj)
      by_cases hdj : w.rearmed l j ≤ w.fireTick
      · -- still to be fired: its deadline is the one it came with
        obtain ⟨hjl, hjq, hdj'⟩ := h.due_fresh hnd (List.mem_cons_of_mem _ hj) hdj
        have := near.rearm a haq j hjq (hrep ▸ hr) hda hdj'
        have hsame : w.rearmed l j = w.deadline j := by simp [Timed.rearmed, hjl]
        rw [hsame]
        constructor <;> omega
      · obtain ⟨h1, h2⟩ := hj'
        constructor <;> omega
    next => exact hsorted
  · rcases (mem_firedQueue h.consistent).mp hi with ⟨rfl, hr⟩ | hi
    · rw [rearmed_snoc_self (hrep ▸ hr)]
      constructor <;> omega
    · rw [rearmed_snoc_of_ne (hne i hi)]
      exact h.near i (List.mem_cons_of_mem _ hi)
  · have hq : q.filter (fun i => w.rearmed (l ++ [a]) i ≤ w.fireTick) =
        q.filter fun i => w.rearmed l i ≤ w.fireTick :=
      List.filter_congr fun i hi => by rw [rearmed_snoc_of_ne (hne i hi)]
    have hfired : (firedQueue s a q).filter (fun i => w.rearmed (l ++ [a]) i ≤ w.fireTick) =
        q.filter fun i => w.rearmed l i ≤ w.fireTick := by
      unfold firedQueue
      split
      next hr =>
        rw [filter_insertIdx (by rw [rearmed_snoc_self (hrep ▸ hr)]; simp; omega) hpos, hq]
      next => exact hq
    rw [hfired, ← h.marked, List.filter_cons, if_pos (by simpa using hdl), List.append_assoc]
    rfl
  · rw [mem_firedQueue h.consistent]
    have hrest := h.rest i
    by_cases hi : i = a
    · subst hi
      simp [haq, hm, hrep]
    · simpa [hi] using hrest

end Firing

/-! ## Arming the timer for the head -/

theorem schedule_empty {s : State} (h : Holds s []) :
    (scheduleNextInterval s).currentIntervalUs = 0#32 ∧
      (scheduleNextInterval s).globalTickUs = s.globalTickUs := by
  unfold scheduleNextInterval
  rw [if_pos (h.count_eq_zero.mpr rfl)]
  exact ⟨rfl, rfl⟩

/-- For a head that is ahead by less than half the 32-bit range, the interval is
the distance to it; the counter is added to the tick when it has passed the
distance already, unless that is a single tick. -/
theorem schedule_ahead {s : State} {a : Slot} {q : List Slot} {D T : Nat} (h : Holds s (a :: q))
    (hfire : (s.tasks a).nextFireUs = BitVec.ofNat 32 D) (htick : s.globalTickUs = BitVec.ofNat 64 T)
    (hlt : T < D) (hnear : D < T + 2 ^ 31) :
    (scheduleNextInterval s).currentIntervalUs = BitVec.ofNat 32 (D - T) ∧
      (scheduleNextInterval s).globalTickUs =
        if D = T + 1 ∨ s.timer.cnt.toNat < D - T then s.globalTickUs
        else s.globalTickUs + s.timer.cnt.setWidth 64 := by
  have hdiff : (s.tasks (frontId s)).nextFireUs - s.globalTickUs.setWidth 32 =
      BitVec.ofNat 32 (D - T) := by
    rw [h.front, hfire, htick, low_ofNat, BitVec.sub_eq_iff_eq_add, ← BitVec.ofNat_add,
      Nat.sub_add_cancel (Nat.le_of_lt hlt)]
  have hnat : (BitVec.ofNat 32 (D - T)).toNat = D - T := by
    rw [BitVec.toNat_ofNat, Nat.mod_eq_of_lt (by omega)]
  have hint : (BitVec.ofNat 32 (D - T)).toInt = ((D - T : Nat) : Int) := by
    rw [BitVec.toInt_eq_toNat_of_lt (by omega), hnat]
  have hcount : s.activeTaskCount ≠ 0#32 := fun h0 => by
    have := h.count_eq_zero.mp h0
    cases this
  unfold scheduleNextInterval
  rw [if_neg hcount]
  simp only [hdiff, hint]
  by_cases h1 : D = T + 1
  · rw [if_pos (by omega), if_pos (.inl h1)]
    exact ⟨by rw [show D - T = 1 by omega], rfl⟩
  · have harr : (BitVec.ofNat 32 (D - T) - 1#32).toNat = D - T - 1 := by
      rw [BitVec.toNat_sub_of_le (by rw [BitVec.le_def, hnat]; simp; omega), hnat]
      rfl
    have hpos : ¬ ((D - T : Nat) : Int) < -1 := by omega
    rw [if_neg (by omega)]
    simp only [if_neg hpos]
    by_cases hc : s.timer.cnt.toNat < D - T
    · rw [if_neg (by rw [BitVec.lt_def, harr]; omega), if_pos (.inr hc)]
      exact ⟨rfl, rfl⟩
    · rw [if_pos (by rw [BitVec.lt_def, harr]; omega), if_neg (by omega)]
      exact ⟨rfl, rfl⟩

/-! ## A whole interrupt -/

/-- What an interrupt does to a queue in time: it marks the due slots in order,
drops the one-shots among them and re-arms the others from the tick it fires at,
and what it leaves queued is later than that tick. -/
structure Fired (w w' : Timed) (cnt : BitVec 32) (q q' : List Slot) : Prop where
  onTime : OnTime w' q'
  marks : w'.marks = w.marks ++
    (q.filter fun i => w.deadline i ≤ w.fireTick).map fun i => (w.fireTick, i)
  deadline : w'.deadline = w.rearmed (q.filter fun i => w.deadline i ≤ w.fireTick)
  mem : ∀ i, i ∈ q' ↔ i ∈ q ∧ (w.deadline i ≤ w.fireTick → (w.st.tasks i).repeating = true)
  same : ∀ i, (w'.st.tasks i).periodUs = (w.st.tasks i).periodUs ∧
    (w'.st.tasks i).repeating = (w.st.tasks i).repeating ∧
    (w'.st.tasks i).callback = (w.st.tasks i).callback
  ahead : ∀ i ∈ q', w.fireTick < w'.deadline i ∧ w'.deadline i < w.fireTick + 2 ^ 31
  idle : q' = [] → w'.st.currentIntervalUs = 0#32 ∧ w'.tick = w.fireTick
  head : ∀ a l, q' = a :: l →
    w'.st.currentIntervalUs = BitVec.ofNat 32 (w'.deadline a - w.fireTick) ∧
    w'.tick = if w'.deadline a = w.fireTick + 1 ∨ cnt.toNat < w'.deadline a - w.fireTick
      then w.fireTick else w.fireTick + cnt.toNat

/-- The true tick, when the stored one is the image of `n`. -/
theorem tick_add_elapsed {w : Timed} {t : State} {n : Nat}
    (h : w.st.globalTickUs = BitVec.ofNat 64 w.tick) (ht : t.globalTickUs = BitVec.ofNat 64 n)
    (hle : w.tick ≤ n) (hlt : n < w.tick + 2 ^ 64) : w.tick + elapsed w.st t = n := by
  rw [elapsed, h, ht, toNat_sub_of_le hle hlt]
  omega

/-- **A timer interrupt in time** marks exactly the due slots and leaves the rest
ahead of the tick it fires at. -/
theorem OnTime.interrupt {w : Timed} {q : List Slot} (h : OnTime w q) (near : InterruptNear w q)
    (cnt : BitVec 32) : ∃ w' q', w.interrupt cnt = some w' ∧ Fired w w' cnt q q' := by
  obtain ⟨r, hr, -⟩ := (h.consistent.atCount cnt).onTimerUpdate
  have hr' := hr
  rw [onTimerUpdate] at hr'
  obtain ⟨⟨s, l⟩, hpop, rfl⟩ := Option.map_eq_some_iff.mp hr'
  -- the loop
  obtain ⟨⟨q', hf⟩, hend⟩ := popDue_rule (P := fun s l => ∃ q', Firing w cnt q s l q')
    (by
      rintro s l ⟨q', hf⟩ h0 hd
      cases q' with
      | nil => exact absurd (hf.consistent.holds.count_eq_zero.mpr rfl) h0
      | cons a q' =>
        rw [hf.consistent.holds.front] at hd ⊢
        exact ⟨_, hf.step near h.consistent.nodup hd⟩)
    ⟨q, Firing.start h near⟩ hpop (l := [])
  simp only [List.nil_append] at hf hend
  -- the head is not due, so nothing is
  have hahead : ∀ i ∈ q', w.fireTick < w.rearmed l i := by
    cases q' with
    | nil => simp
    | cons a q' =>
      have hnot : ¬ w.rearmed l a ≤ w.fireTick := by
        rcases hend with h0 | hd
        · exact absurd (hf.consistent.holds.count_eq_zero.mp h0) (by simp)
        · rw [hf.consistent.holds.front] at hd
          rw [← hf.due_iff (by simp), hd]
          decide
      intro i hi
      rcases List.mem_cons.mp hi with rfl | hi
      · omega
      · have := (List.pairwise_cons.mp hf.sorted).1 i hi
        omega
  have hmarked : l = q.filter fun i => w.deadline i ≤ w.fireTick := by
    rw [← hf.marked, List.filter_eq_nil_iff.mpr (fun i hi => by have := hahead i hi; simp; omega),
      List.append_nil]
  have hnear : ∀ i ∈ q', w.rearmed l i < w.fireTick + 2 ^ 31 := fun i hi => (hf.near i hi).2
  refine ⟨_, q', by rw [Timed.interrupt, hr]; rfl, ?_⟩
  have hs0 : s.globalTickUs = BitVec.ofNat 64 w.fireTick := hf.tick
  have hint : w.fireTick < w.tick + 2 ^ 32 := by
    have := w.st.currentIntervalUs.isLt
    unfold Timed.fireTick
    omega
  have hle : w.tick ≤ w.fireTick := Nat.le_add_right ..
  refine ⟨⟨hf.consistent.schedule, ofNat_elapsed h.tick, ?_, hf.sorted⟩, ?_, ?_, ?_, ?_, ?_, ?_, ?_⟩
  · simp only [scheduleNextInterval_tasks]
    exact hf.fire
  · rw [hmarked]
  · rw [hmarked]
  · intro i
    rw [hf.rest i, hmarked, List.mem_filter]
    constructor
    · rintro ⟨hi, hrep⟩
      exact ⟨hi, fun hd => hrep ⟨hi, by simpa using hd⟩⟩
    · rintro ⟨hi, hrep⟩
      exact ⟨hi, fun hd => hrep (by simpa using hd.2)⟩
  · simp only [scheduleNextInterval_tasks]
    exact hf.same
  · exact fun i hi => ⟨hahead i hi, hnear i hi⟩
  · rintro rfl
    obtain ⟨hi, ht⟩ := schedule_empty hf.consistent.holds
    exact ⟨hi, tick_add_elapsed h.tick (ht.trans hs0) hle (by omega)⟩
  · rintro a l' rfl
    obtain ⟨hi, ht⟩ := schedule_ahead hf.consistent.holds (hf.fire a (by simp)) hs0
      (hahead a (by simp)) (hnear a (by simp))
    refine ⟨hi, ?_⟩
    rw [hf.count] at ht
    show w.tick + elapsed w.st (scheduleNextInterval s) = _
    split at ht
    next hc =>
      rw [if_pos hc]
      exact tick_add_elapsed h.tick (ht.trans hs0) hle (by omega)
    next hc =>
      rw [if_neg hc]
      have hcnt := cnt.isLt
      refine tick_add_elapsed h.tick ?_ (by omega) (by omega)
      rw [ht, hs0, BitVec.ofNat_add]
      congr 1
      apply BitVec.eq_of_toNat_eq
      simp

/-! ## Updates -/

/-- An update whose callbacks call nothing changes no deadline. -/
theorem OnTime.update {w : Timed} {q : List Slot} (h : OnTime w q) (cnt : BitVec 32) :
    ∃ w', w.update cnt = some w' ∧ OnTime w' q ∧ w'.tick = w.tick ∧ w'.deadline = w.deadline ∧
      w'.marks = w.marks ∧ w'.st.currentIntervalUs = w.st.currentIntervalUs ∧
      w'.st.tasks = w.st.tasks := by
  obtain ⟨r, hr, hq, htasks, htick, hint⟩ :=
    quietUpdate_keeps (h.consistent.atCount cnt) (fun _ => rfl : ∀ n, (fun _ => [] : Nat → Script) n = [])
  have hsame : w.tick + elapsed w.st r.1 = w.tick :=
    tick_add_elapsed h.tick (htick.trans h.tick) (Nat.le_refl _) (by omega)
  refine ⟨{ w with st := r.1, tick := w.tick + elapsed w.st r.1 }, by rw [Timed.update, hr]; rfl,
    ⟨hq, ofNat_elapsed h.tick, ?_, h.sorted⟩, hsame, rfl, rfl, hint, htasks⟩
  rw [htasks]
  exact h.fire

end StLib.Scheduler.TrueTime
