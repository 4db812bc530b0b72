import StLib.Base.Runs
import StLib.Scheduler.Steps

/-! # The queue, the bitmaps and the tasks agree

`Consistent s q`: the packed queue is the list `q`, without repetition, and it
holds exactly the allocated slots that are not a fired one-shot timeout waiting
for `update`. Every operation keeps it, as long as no call removes slot 0 while
that slot holds such a timeout (`RemoveSafe`): the padding of the packed word
reads as slot 0, and `remove_sorted` would take it for a queued one. -/
namespace StLib.Scheduler.Invariant

open StLib.Base.NibbleWord StLib.Base.SortedQueue StLib.Base.Runs
open StLib.Scheduler.Model StLib.Scheduler.Queue StLib.Scheduler.Steps

/-- The slot is marked ready and does not repeat. -/
def firedTimeout (s : State) (i : Slot) : Bool := s.isReady i && !(s.tasks i).repeating

/-- The call does not remove slot 0 while it holds a fired timeout. -/
def RemoveSafe (s : State) (c : Call) : Prop := c.removes s = some 0 → firedTimeout s 0 = false

theorem removeSafe_registerTask (s : State) (p : BitVec 32) (f : Option Callback) :
    RemoveSafe s (.registerTask p f) := by
  intro h
  cases h

/-- The packed queue, the bitmaps and the tasks describe the same slots. -/
structure Consistent (s : State) (q : List Slot) : Prop where
  holds : Holds s q
  nodup : q.Nodup
  queued : ∀ i, i ∈ q ↔ s.isFree i = false ∧ firedTimeout s i = false
  readyTaken : ∀ i, s.isReady i = true → s.isFree i = false
  readySlots : ∀ k, 16 ≤ k → s.readyBitmap.getLsbD k = false
  period : ∀ i, s.isFree i = false → GoodPeriod (s.tasks i).periodUs

namespace Consistent

variable {s t : State} {q : List Slot} {i slot : Slot}

/-- Only the word, the count, the bitmaps and the tasks matter. -/
theorem congr (h : Consistent s q) (hw : t.sortedTaskIds = s.sortedTaskIds)
    (hc : t.activeTaskCount = s.activeTaskCount) (hr : t.readyBitmap = s.readyBitmap)
    (hf : t.freeBitmap = s.freeBitmap) (ht : t.tasks = s.tasks) : Consistent t q := by
  refine ⟨h.holds.congr hw hc, h.nodup, ?_, ?_, ?_, ?_⟩
  · simpa only [firedTimeout, State.isFree, State.isReady, hr, hf, ht] using h.queued
  · simpa only [State.isFree, State.isReady, hr, hf] using h.readyTaken
  · simpa only [hr] using h.readySlots
  · simpa only [State.isFree, hf, ht] using h.period

theorem schedule (h : Consistent s q) : Consistent (scheduleNextInterval s) q :=
  h.congr (by simp) (by simp) (by simp) (by simp) (by simp)

theorem atCount (h : Consistent s q) (cnt : BitVec 32) : Consistent (s.atCount cnt) q :=
  h.congr rfl rfl rfl rfl rfl

theorem notQueued_of_free (h : Consistent s q) (hf : s.isFree slot = true) : slot ∉ q := by
  intro hm
  rw [((h.queued slot).mp hm).1] at hf
  cases hf

theorem notReady_of_free (h : Consistent s q) (hf : s.isFree slot = true) :
    s.isReady slot = false := by
  cases hr : s.isReady slot with
  | false => rfl
  | true => rw [h.readyTaken slot hr] at hf; cases hf

/-- A queue that misses a slot is not full. -/
theorem length_lt (h : Consistent s q) (hm : slot ∉ q) : q.length < 16 := by
  have hnd : (slot :: q).Nodup := List.nodup_cons.mpr ⟨hm, h.nodup⟩
  have := List.Nodup.length_le_card hnd
  rw [List.length_cons, Fintype.card_fin] at this
  omega

/-- At the start nothing is queued and every slot is free. -/
theorem initial : Consistent Model.initial [] := by
  refine ⟨⟨packs_nil, rfl⟩, List.nodup_nil, ?_, ?_, ?_, ?_⟩
  · decide
  · decide
  · intro k _
    rw [show Model.initial.readyBitmap = 0#32 from rfl]
    simp
  · intro i hf
    have : Model.initial.isFree i = true := by revert i; decide
    rw [this] at hf
    cases hf

end Consistent

/-! ## Arming and dropping a task -/

/-- The state `arm_task` inserts the slot in: the slot is claimed and carries its
deadline. -/
def armed (s : State) (slot : Slot) (task : Task) (idx : BitVec 16) : State :=
  (claimSlot s slot task idx).setTask slot { task with
    nextFireUs := (s.globalTickUs + s.timer.cnt.setWidth 64 + task.periodUs.setWidth 64).setWidth 32 }

theorem armTask_claimSlot (s : State) (slot : Slot) (task : Task) (idx : BitVec 16) :
    armTask (claimSlot s slot task idx) slot task.periodUs =
      scheduleNextInterval (insertSorted (armed s slot task idx) slot) := by
  have : (claimSlot s slot task idx).tasks slot = task := Function.update_self ..
  rw [armTask, this]
  rfl

theorem armed_tasks_of_ne {s : State} {slot i : Slot} {task : Task} {idx : BitVec 16}
    (h : i ≠ slot) : (armed s slot task idx).tasks i = s.tasks i := by
  show Function.update (Function.update s.tasks slot task) slot _ i = _
  rw [Function.update_of_ne h, Function.update_of_ne h]

theorem armed_tasks_self (s : State) (slot : Slot) (task : Task) (idx : BitVec 16) :
    (armed s slot task idx).tasks slot = { task with
      nextFireUs :=
        (s.globalTickUs + s.timer.cnt.setWidth 64 + task.periodUs.setWidth 64).setWidth 32 } :=
  Function.update_self ..

theorem armed_isFree (s : State) (slot i : Slot) (task : Task) (idx : BitVec 16) :
    (armed s slot task idx).isFree i = (s.isFree i && decide (i ≠ slot)) := takeSlot_isFree s slot i

/-- **A new task is queued** where the search puts it. -/
theorem Consistent.arm {s : State} {q : List Slot} {slot : Slot} {task : Task} (h : Consistent s q)
    (hf : s.isFree slot = true) (hp : GoodPeriod task.periodUs) (idx : BitVec 16) :
    Consistent (armTask (claimSlot s slot task idx) slot task.periodUs)
      (q.insertIdx (insertPos (armed s slot task idx) slot) slot) := by
  have hm := h.notQueued_of_free hf
  have hr := h.notReady_of_free hf
  have hh : Holds (armed s slot task idx) q := h.holds.congr rfl rfl
  have hpos := insertPos_le hh slot
  rw [armTask_claimSlot]
  apply Consistent.schedule
  refine ⟨insertSorted_holds hh (h.length_lt hm) slot, nodup_insertIdx h.nodup hpos hm,
    fun i => ?_, fun i hi => ?_, h.readySlots, fun i hi => ?_⟩
  · rw [List.mem_insertIdx hpos, h.queued i]
    show _ ↔ (armed s slot task idx).isFree i = false ∧ (s.isReady i && !_) = false
    by_cases hi : i = slot
    · subst hi
      simp [armed_isFree, hr]
    · rw [armed_isFree, show (insertSorted (armed s slot task idx) slot).tasks i = s.tasks i from
        armed_tasks_of_ne hi]
      simp [hi, firedTimeout]
  · show (armed s slot task idx).isFree i = false
    rw [armed_isFree, h.readyTaken i hi, Bool.false_and]
  · by_cases he : i = slot
    · subst he
      rw [show (insertSorted (armed s i task idx) i).tasks i = _ from armed_tasks_self s i task idx]
      exact hp
    · have hi' : (armed s slot task idx).isFree i = false := hi
      rw [show (insertSorted (armed s slot task idx) slot).tasks i = s.tasks i from
        armed_tasks_of_ne he]
      rw [armed_isFree] at hi'
      exact h.period i (by simpa [he] using hi')

/-- **A dropped task leaves the queue** and nothing else does. -/
theorem Consistent.drop {s : State} {q : List Slot} {slot : Slot} (h : Consistent s q)
    (hf : s.isFree slot = false) (h0 : slot = 0 → firedTimeout s 0 = false) :
    Consistent (dropTask s slot) (q.erase slot) := by
  have hh : Holds (dropTask s slot) (q.erase slot) := by
    have key : Holds (removeSorted s slot) (q.erase slot) := by
      by_cases hm : slot ∈ q
      · exact removeSorted_holds h.holds h.nodup hm
      · -- not queued, so fired: then it is not slot 0 and is not found
        have hne : slot ≠ 0 := by
          intro he
          exact hm ((h.queued slot).mpr ⟨hf, he ▸ h0 he⟩)
        rw [removeSorted_absent h.holds hm hne, List.erase_of_not_mem hm]
        exact h.holds
    exact key.congr (by simp [dropTask, releaseSlot]) (by simp [dropTask, releaseSlot])
  refine ⟨hh, h.nodup.erase _, fun i => ?_, fun i => ?_, fun k hk => ?_, fun i => ?_⟩
  · rw [h.nodup.mem_erase_iff, h.queued i]
    simp only [firedTimeout, dropTask_isFree, dropTask_isReady, dropTask_tasks]
    by_cases hi : i = slot <;> simp [hi]
  · have := h.readyTaken i
    simp only [dropTask_isFree, dropTask_isReady]
    by_cases hi : i = slot
    · simp [hi]
    · simpa [hi] using this
  · simp only [dropTask, scheduleNextInterval_ready, releaseSlot, removeSorted_ready,
      clear_getLsbD, h.readySlots k hk, Bool.false_and]
  · rw [dropTask_isFree, dropTask_tasks]
    intro hi
    exact h.period i (Bool.or_eq_false_iff.mp hi).1

/-- Every call keeps the queue and the bitmaps in agreement. -/
theorem Consistent.call {s : State} {q : List Slot} (h : Consistent s q) {c : Call}
    (safe : RemoveSafe s c) : ∃ q', Consistent (c.run s) q' ∧
      (∀ slot, c.removes s = some slot → q' = q.erase slot) ∧ (c.removes s = none → q ⊆ q') := by
  rcases Call.run_cases c s with
    ⟨hrun, hrem, -⟩ | ⟨slot, task, idx, hf, hp, -, hrem, -, hrun⟩ | ⟨slot, hf, hrem, -, hrun⟩
  · exact ⟨q, hrun.symm ▸ h, by simp [hrem], fun _ => List.Subset.refl q⟩
  · have hh : Holds (armed s slot task idx) q := h.holds.congr rfl rfl
    refine ⟨_, hrun ▸ h.arm hf hp idx, by simp [hrem], fun _ i hi => ?_⟩
    rw [List.mem_insertIdx (insertPos_le hh slot)]
    exact .inr hi
  · refine ⟨_, hrun ▸ h.drop hf fun h0 => safe (h0 ▸ hrem), ?_, by simp [hrem]⟩
    intro slot' h'
    rw [hrem, Option.some.injEq] at h'
    rw [h']

/-! ## The timer interrupt -/

/-- The deadline of the slot has been reached, as the loop of `on_timer_update`
reads it. -/
def due (s : State) (i : Slot) : Bool :=
  decide (((s.tasks i).nextFireUs - s.globalTickUs.setWidth 32).toInt ≤ 0)

/-- The loop is a fold: what holds before it with nothing marked, and is kept by
firing a due head, holds after it, and then no head is due. -/
theorem popDue_rule {P : State → List Slot → Prop}
    (hstep : ∀ s l, P s l → s.activeTaskCount ≠ 0#32 → due s (frontId s) = true →
      P (fireHead s) (l ++ [frontId s])) :
    ∀ {n s l r}, P s l → popDue n s = some r →
      P r.1 (l ++ r.2) ∧ (r.1.activeTaskCount = 0#32 ∨ due r.1 (frontId r.1) = false)
  | 0, _, _, _, _, h => by simp [popDue] at h
  | n + 1, s, l, r, hP, h => by
    rw [popDue] at h
    dsimp only at h
    split_ifs at h with h0 hd
    · cases h
      exact ⟨by simpa using hP, .inl h0⟩
    · cases h
      exact ⟨by simpa using hP, .inr (by simpa [due] using hd)⟩
    · obtain ⟨r', hr', rfl⟩ := Option.map_eq_some_iff.mp h
      have := popDue_rule hstep (hstep s l hP h0 (by simpa [due] using hd)) hr'
      simpa using this

/-- The record of the fired slot: a repeating one carries its next deadline. -/
def refired (s : State) (a : Slot) : Task :=
  if (s.tasks a).repeating then
    { s.tasks a with nextFireUs := (s.globalTickUs + (s.tasks a).periodUs.setWidth 64).setWidth 32 }
  else s.tasks a

/-- The state `fireHead` inserts a repeating head in. -/
def fired (s : State) (a : Slot) : State :=
  { popFront s with
    readyBitmap := s.readyBitmap ||| bit a
    tasks := Function.update s.tasks a (refired s a)
    failingId := if s.isReady a then BitVec.ofNat 16 a.val else s.failingId }

/-- Firing the head `a` marks it; a repeating head goes back in. -/
theorem fireHead_eq {s : State} {a : Slot} (ha : frontId s = a) :
    fireHead s = if (s.tasks a).repeating then insertSorted (fired s a) a else fired s a := by
  subst ha
  have hmark : (if (popFront s).readyBitmap &&& bit (frontId s) ≠ 0#32 then
      { popFront s with failingId := BitVec.ofNat 16 (frontId s).val } else popFront s) =
      { popFront s with failingId :=
          (if s.isReady (frontId s) then BitVec.ofNat 16 (frontId s).val else s.failingId) } := by
    have hready : (popFront s).readyBitmap &&& bit (frontId s) ≠ 0#32 ↔
        s.isReady (frontId s) = true := and_bit_ne_zero s.readyBitmap (frontId s)
    by_cases hr : s.isReady (frontId s) = true
    · rw [if_pos (hready.mpr hr), if_pos hr]
    · rw [if_neg (mt hready.mp hr), if_neg hr]; rfl
  unfold fireHead
  simp only [hmark]
  by_cases hrep : (s.tasks (frontId s)).repeating = true
  · rw [if_pos hrep, fired, refired, if_pos hrep]
    exact if_pos hrep
  · rw [if_neg hrep, fired, refired, if_neg hrep, Function.update_eq_self]
    exact if_neg hrep

theorem fireHead_timeoutIdx (s : State) : (fireHead s).timeoutIdx = s.timeoutIdx := by
  rw [fireHead_eq rfl]
  split <;> rfl

theorem fired_tasks_of_ne {s : State} {a i : Slot} (h : i ≠ a) : (fired s a).tasks i = s.tasks i :=
  Function.update_of_ne h ..

theorem fired_tasks_self (s : State) (a : Slot) : (fired s a).tasks a = refired s a :=
  Function.update_self ..

@[simp] theorem refired_repeating (s : State) (a : Slot) :
    (refired s a).repeating = (s.tasks a).repeating := by
  unfold refired; split <;> rfl

@[simp] theorem refired_periodUs (s : State) (a : Slot) :
    (refired s a).periodUs = (s.tasks a).periodUs := by
  unfold refired; split <;> rfl

@[simp] theorem refired_callback (s : State) (a : Slot) :
    (refired s a).callback = (s.tasks a).callback := by
  unfold refired; split <;> rfl

theorem fired_isReady (s : State) (a i : Slot) :
    (fired s a).isReady i = (s.isReady i || decide (i = a)) := by
  simp only [State.isReady, fired, set_getLsbD, Fin.ext_iff]

/-- The queue after the head fired. -/
def firedQueue (s : State) (a : Slot) (q : List Slot) : List Slot :=
  if (s.tasks a).repeating then q.insertIdx (insertPos (fired s a) a) a else q

theorem mem_firedQueue {s : State} {a : Slot} {q : List Slot} (h : Consistent s (a :: q)) {i : Slot} :
    i ∈ firedQueue s a q ↔ (i = a ∧ (s.tasks a).repeating = true) ∨ i ∈ q := by
  have hh : Holds (fired s a) q := h.holds.pop.congr rfl rfl
  unfold firedQueue
  split
  next hr => rw [List.mem_insertIdx (insertPos_le hh a)]; simp [hr]
  next hr => simp [hr]

/-- Firing the head keeps the queue and the bitmaps in agreement. -/
theorem Consistent.fireHead {s : State} {a : Slot} {q : List Slot} (h : Consistent s (a :: q)) :
    Consistent (fireHead s) (firedQueue s a q) := by
  obtain ⟨hm, hnd⟩ := List.nodup_cons.mp h.nodup
  have hh : Holds (fired s a) q := h.holds.pop.congr rfl rfl
  have hlt : q.length < 16 := by have := h.holds.length_le; simp at this; omega
  have hfree := ((h.queued a).mp (by simp)).1
  have rest : (∀ i, i ∈ firedQueue s a q ↔
        (fired s a).isFree i = false ∧ firedTimeout (fired s a) i = false) ∧
      (∀ i, (fired s a).isReady i = true → (fired s a).isFree i = false) ∧
      (∀ k, 16 ≤ k → (fired s a).readyBitmap.getLsbD k = false) ∧
      (∀ i, (fired s a).isFree i = false → GoodPeriod ((fired s a).tasks i).periodUs) := by
    refine ⟨fun i => ?_, fun i hi => ?_, fun k hk => ?_, fun i hi => ?_⟩
    · rw [mem_firedQueue h]
      show _ ↔ s.isFree i = false ∧ _
      rw [firedTimeout, fired_isReady]
      by_cases hi : i = a
      · subst hi
        rw [fired_tasks_self, refired_repeating]
        simp [hm, hfree]
      · have := h.queued i
        rw [fired_tasks_of_ne hi]
        simpa [hi, firedTimeout] using this
    · show s.isFree i = false
      rw [fired_isReady] at hi
      by_cases he : i = a
      · rw [he, hfree]
      · exact h.readyTaken i (by simpa [he] using hi)
    · show (s.readyBitmap ||| bit a).getLsbD k = false
      rw [set_getLsbD, h.readySlots k hk]
      have := a.isLt
      simp; omega
    · by_cases he : i = a
      · subst he
        rw [fired_tasks_self, refired_periodUs]
        exact h.period i hfree
      · rw [fired_tasks_of_ne he]
        exact h.period i hi
  obtain ⟨queued, readyTaken, readySlots, period⟩ := rest
  rw [fireHead_eq h.holds.front]
  unfold firedQueue at queued ⊢
  split at queued
  next hr =>
    simp only [if_pos hr]
    exact ⟨insertSorted_holds hh hlt a, nodup_insertIdx hnd (insertPos_le hh a) hm, queued,
      readyTaken, readySlots, period⟩
  next hr =>
    simp only [if_neg hr]
    exact ⟨hh, hnd, queued, readyTaken, readySlots, period⟩

/-! ### The loop ends -/

theorem fireHead_due {s : State} {a i : Slot} (ha : frontId s = a) :
    due (fireHead s) i = due (fired s a) i := by
  rw [fireHead_eq ha]
  split <;> rfl

/-- A task due again in a good period is not due now. -/
theorem due_refired {s : State} {a : Slot} (hp : GoodPeriod (s.tasks a).periodUs)
    (hr : (s.tasks a).repeating = true) : due (fired s a) a = false := by
  rw [due, fired_tasks_self, refired, if_pos hr, decide_eq_false_iff_not]
  have hsub : (s.globalTickUs + (s.tasks a).periodUs.setWidth 64).setWidth 32 -
      s.globalTickUs.setWidth 32 = (s.tasks a).periodUs := by
    rw [BitVec.setWidth_add _ _ (by decide), BitVec.setWidth_setWidth_of_le _ (by decide),
      BitVec.setWidth_eq, BitVec.add_comm, BitVec.add_sub_cancel]
  show ¬ (_ - s.globalTickUs.setWidth 32).toInt ≤ 0
  rw [hsub, BitVec.toInt_eq_toNat_of_lt (by have := hp.2; omega)]
  have := hp.1
  omega

/-- Firing a due head leaves one due task less in the queue. -/
theorem Consistent.countP_due {s : State} {a : Slot} {q : List Slot} (h : Consistent s (a :: q)) :
    (firedQueue s a q).countP (due (Model.fireHead s)) = q.countP (due s) := by
  obtain ⟨hm, -⟩ := List.nodup_cons.mp h.nodup
  have hh : Holds (fired s a) q := h.holds.pop.congr rfl rfl
  have hrest : q.countP (due (Model.fireHead s)) = q.countP (due s) := by
    refine List.countP_congr fun i hi => ?_
    have hne : i ≠ a := fun he => hm (he ▸ hi)
    rw [fireHead_due h.holds.front, due, fired_tasks_of_ne hne]
    exact Iff.rfl
  unfold firedQueue
  split
  next hr =>
    have hfree := ((h.queued a).mp (by simp)).1
    rw [(List.perm_insertIdx a q (insertPos_le hh a)).countP_eq, List.countP_cons, hrest,
      fireHead_due h.holds.front, due_refired (h.period a hfree) hr]
    rfl
  next => exact hrest

/-- The loop ends within a round more than there are due tasks. -/
theorem popDue_total : ∀ {n : Nat} {s : State} {q : List Slot}, Consistent s q →
    q.countP (due s) < n → ∃ r, popDue n s = some r
  | 0, _, _, _, h => absurd h (Nat.not_lt_zero _)
  | n + 1, s, q, hc, h => by
    rw [popDue]
    dsimp only
    split_ifs with h0 hd
    · exact ⟨_, rfl⟩
    · exact ⟨_, rfl⟩
    · cases q with
      | nil => exact absurd (hc.holds.count_eq_zero.mpr rfl) h0
      | cons a q =>
        have hdue : due s a = true := by
          rw [hc.holds.front] at hd
          simpa [due] using hd
        rw [List.countP_cons, hdue] at h
        obtain ⟨r, hr⟩ := popDue_total hc.fireHead (n := n) (by
          rw [hc.countP_due]
          simpa using h)
        exact ⟨_, by rw [hr]; rfl⟩

/-- **The timer interrupt** ends and keeps the queue and the bitmaps in agreement. -/
theorem Consistent.onTimerUpdate {s : State} {q : List Slot} (h : Consistent s q) :
    ∃ r, onTimerUpdate s = some r ∧ ∃ q', Consistent r.1 q' := by
  let s' := { s with globalTickUs := s.globalTickUs + s.currentIntervalUs.setWidth 64 }
  have h' : Consistent s' q := h.congr rfl rfl rfl rfl rfl
  obtain ⟨r, hr⟩ := popDue_total (n := 17) h' (by
    have := List.countP_le_length (p := due s') (l := q)
    have := h.holds.length_le
    omega)
  have hfin : ∃ q', Consistent r.1 q' := by
    refine (popDue_rule (P := fun t _ => ∃ q', Consistent t q') ?_ ⟨q, h'⟩ hr (l := [])).1
    rintro t - ⟨q', ht⟩ h0 -
    cases q' with
    | nil => exact absurd (ht.holds.count_eq_zero.mpr rfl) h0
    | cons a q' => exact ⟨_, ht.fireHead⟩
  obtain ⟨q', hq'⟩ := hfin
  exact ⟨_, by rw [Model.onTimerUpdate, hr]; rfl, q', hq'.schedule⟩

end StLib.Scheduler.Invariant
