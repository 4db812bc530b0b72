import StLib.Scheduler.Reentrancy

/-! # The time across a call

The time is the tick and what the counter holds. Arming the timer may restart the
counter: where the programmed interval is over it adds the count to the tick, where the
queue is empty or the next deadline is on the tick it does not. -/
namespace StLib.Scheduler.TimeConservation

open StLib.Base.Runs StLib.Scheduler.Model StLib.Scheduler.Steps StLib.Scheduler.Reentrancy

/-- `global_tick_us_ + CNT`. -/
def globalTime (s : State) : BitVec 64 := s.globalTickUs + s.timer.cnt.setWidth 64

/-- How far the first deadline is from the tick. -/
def firstDiff (s : State) : Int :=
  ((s.tasks (frontId s)).nextFireUs - s.globalTickUs.setWidth 32).toInt

/-- Nothing is queued, or the first deadline is at most 1 µs from the tick. -/
def DropsCount (s : State) : Prop :=
  s.activeTaskCount = 0#32 ∨ (-1 ≤ firstDiff s ∧ firstDiff s ≤ 1)

instance (s : State) : Decidable (DropsCount s) := inferInstanceAs (Decidable (_ ∨ _))

/-- The queue a call leaves, with the deadline of a task it adds; `none` where the call is
refused. -/
def requeued (s : State) (c : Call) : Option State :=
  match c.adds s, c.removes s with
  | some slot, _ =>
    let nextFireUs := (globalTime s + c.periodUs.setWidth 64).setWidth 32
    some (insertSorted (s.setTask slot { s.tasks slot with nextFireUs }) slot)
  | none, some slot => some (removeSorted s slot)
  | none, none => none

/-! ## Arming the timer -/

theorem count_eq_zero {cnt : BitVec 32} {tick : BitVec 64} :
    tick + (0#32).setWidth 64 = tick + cnt.setWidth 64 ↔ cnt = 0#32 := by
  rw [BitVec.add_right_inj]
  constructor
  · intro h
    have hval := congrArg BitVec.toNat h
    have hlt := cnt.isLt
    apply BitVec.eq_of_toNat_eq
    simp only [BitVec.toNat_setWidth, BitVec.toNat_ofNat] at hval ⊢
    omega
  · rintro rfl
    rfl

/-- What the counter held is added to the tick, or it is dropped. -/
theorem schedule_globalTime (s : State) :
    globalTime (scheduleNextInterval s) = globalTime s ↔ (DropsCount s → s.timer.cnt = 0#32) := by
  unfold scheduleNextInterval
  split
  next h =>
    have hd : DropsCount s := .inl h
    exact count_eq_zero.trans ⟨fun hc _ => hc, fun hc => hc hd⟩
  next h =>
    dsimp only
    split
    next hnear =>
      have hd : DropsCount s := .inr hnear
      exact count_eq_zero.trans ⟨fun hc _ => hc, fun hc => hc hd⟩
    next hfar =>
      have hd : ¬ DropsCount s := not_or.mpr ⟨h, hfar⟩
      refine iff_of_true ?_ fun hc => absurd hc hd
      have harm : ∀ interval arr : BitVec 32, globalTime (if arr < s.timer.cnt then
          { s with
            currentIntervalUs := interval
            globalTickUs := s.globalTickUs + s.timer.cnt.setWidth 64
            timer := { s.timer with arr := arr, cnt := 0#32, cen := true } }
        else
          { s with
            currentIntervalUs := interval, timer := { s.timer with arr := arr, cen := true } }) =
          globalTime s := fun interval arr => by
        split
        next => exact BitVec.add_zero _
        next => rfl
      exact harm _ _

/-! ## Calls -/

theorem dropsCount_congr {s t : State} (hc : t.activeTaskCount = s.activeTaskCount)
    (hw : t.sortedTaskIds = s.sortedTaskIds) (hg : t.globalTickUs = s.globalTickUs)
    (hn : ∀ i, (t.tasks i).nextFireUs = (s.tasks i).nextFireUs) : DropsCount t ↔ DropsCount s := by
  have hf : frontId t = frontId s := by rw [frontId, hw, frontId]
  simp only [DropsCount, firstDiff, hc, hf, hg, hn]

/-- Only the deadlines matter to where a task is queued. -/
theorem insertSorted_congr {s t : State} (slot : Slot) (hc : t.activeTaskCount = s.activeTaskCount)
    (hw : t.sortedTaskIds = s.sortedTaskIds)
    (hn : ∀ i, (t.tasks i).nextFireUs = (s.tasks i).nextFireUs) :
    (insertSorted t slot).sortedTaskIds = (insertSorted s slot).sortedTaskIds := by
  have hget : ∀ idx, getAt t idx = getAt s idx := fun idx => by rw [getAt, hw, getAt]
  have hpos : insertPos t slot = insertPos s slot := by
    simp only [insertPos, hn, hget, hc]
  show openNibble t.sortedTaskIds _ slot = openNibble s.sortedTaskIds _ slot
  rw [hw, hpos]

theorem setTask_nextFireUs (s : State) (slot i : Slot) (task : Task) :
    ((s.setTask slot task).tasks i).nextFireUs =
      if i = slot then task.nextFireUs else (s.tasks i).nextFireUs := by
  by_cases h : i = slot
  · rw [if_pos h, h]
    exact congrArg Task.nextFireUs (Function.update_self ..)
  · rw [if_neg h]
    exact congrArg Task.nextFireUs (Function.update_of_ne h ..)

/-- **The time across a call.** In every state, the call leaves the time as it was exactly
when it is refused, finds the counter at 0, or leaves a queue whose first deadline is
more than 1 µs from the tick. -/
theorem time_conserved_iff (s : State) (c : Call) :
    globalTime (c.run s) = globalTime s ↔
      ∀ t, requeued s c = some t → DropsCount t → s.timer.cnt = 0#32 := by
  rcases Call.run_cases c s with ⟨hrun, hremoves, hadds⟩ | hcase | hcase
  · simp [hrun, requeued, hremoves, hadds]
  · obtain ⟨slot, task, idx, -, -, hperiod, -, hadds, hrun⟩ := hcase
    let claimed := claimSlot s slot task idx
    have htask : claimed.tasks slot = task := Function.update_self ..
    let fire := (globalTime s + c.periodUs.setWidth 64).setWidth 32
    have hfire : (globalTime claimed + task.periodUs.setWidth 64).setWidth 32 = fire := by
      rw [hperiod]
      rfl
    have hrun' : c.run s = scheduleNextInterval
        (insertSorted (claimed.setTask slot { claimed.tasks slot with nextFireUs := fire }) slot) := by
      rw [hrun, ← hfire]
      rfl
    have hnext : ∀ i,
        ((claimed.setTask slot { claimed.tasks slot with nextFireUs := fire }).tasks i).nextFireUs =
          ((s.setTask slot { s.tasks slot with nextFireUs := fire }).tasks i).nextFireUs := by
      intro i
      rw [setTask_nextFireUs, setTask_nextFireUs]
      by_cases hi : i = slot
      · rw [if_pos hi, if_pos hi]
      · rw [if_neg hi, if_neg hi]
        exact congrArg Task.nextFireUs (Function.update_of_ne hi ..)
    have hdrops := dropsCount_congr
      (s := insertSorted (s.setTask slot { s.tasks slot with nextFireUs := fire }) slot)
      (t := insertSorted (claimed.setTask slot { claimed.tasks slot with nextFireUs := fire }) slot)
      rfl (insertSorted_congr slot rfl rfl hnext) rfl hnext
    have hq : requeued s c =
        some (insertSorted (s.setTask slot { s.tasks slot with nextFireUs := fire }) slot) := by
      rw [requeued, hadds]
    rw [hrun', hq]
    refine (schedule_globalTime _).trans ?_
    rw [hdrops]
    exact ⟨fun h t ht => Option.some.inj ht ▸ h, fun h => h _ rfl⟩
  · obtain ⟨slot, -, hremoves, hadds, hrun⟩ := hcase
    have hdrops := dropsCount_congr (s := removeSorted s slot)
      (t := releaseSlot (removeSorted s slot) slot) rfl rfl rfl fun _ => rfl
    have hsame : globalTime (releaseSlot (removeSorted s slot) slot) = globalTime s := by
      show (removeSorted s slot).globalTickUs + (removeSorted s slot).timer.cnt.setWidth 64 = _
      rw [removeSorted_tick, removeSorted_timer]
      rfl
    have hcnt : (releaseSlot (removeSorted s slot) slot).timer.cnt = s.timer.cnt :=
      congrArg Timer.cnt (removeSorted_timer s slot)
    have hq : requeued s c = some (removeSorted s slot) := by rw [requeued, hadds, hremoves]
    rw [hrun, hq, dropTask, ← hsame]
    refine (schedule_globalTime _).trans ?_
    rw [hdrops, hcnt]
    exact ⟨fun h t ht => Option.some.inj ht ▸ h, fun h => h _ rfl⟩

/-- **Removing the only task 5 µs after it was registered** sets the time back by 5 µs. -/
theorem time_lost_with_last_task :
    ¬ ∀ ls s, Run Step (fun _ _ => True) initial ls s →
      ∀ (cnt : BitVec 32) (c : Call),
        globalTime (c.run (s.atCount cnt)) = globalTime (s.atCount cnt) := by
  intro h
  have hlost := h _ _ (.cons trivial step_registered (.nil _)) 5#32 (.unregisterTask 0#16)
  revert hlost
  decide +kernel

end StLib.Scheduler.TimeConservation
