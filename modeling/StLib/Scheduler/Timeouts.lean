import StLib.Scheduler.Dispatching

/-! # The tasks the scheduler holds

What each operation does to the table from the taken slots to their tasks (`held`):
`register_task` and `set_timeout` add an entry, `unregister_task` drops one,
`cancel_timeout` drops the one-shot with its id, a dispatch drops the one-shot of
its slot, and the timer interrupt leaves the table as it is. -/
namespace StLib.Scheduler.Timeouts

open StLib.Scheduler.Model StLib.Scheduler.Steps StLib.Scheduler.Invariant
open StLib.Scheduler.Dispatching

/-- What stays of a task from when it is added. -/
structure Entry where
  callback : Option Callback
  repeating : Bool
  id : BitVec 16
deriving DecidableEq

def Entry.ofTask (task : Task) : Entry := ⟨task.callback, task.repeating, task.id⟩

def held (s : State) (i : Slot) : Option Entry :=
  if s.isFree i then none else some (.ofTask (s.tasks i))

variable {s t : State} {slot i : Slot}

theorem held_of_free (h : s.isFree i = true) : held s i = none := if_pos h

theorem held_of_taken (h : s.isFree i = false) : held s i = some (.ofTask (s.tasks i)) :=
  if_neg (Bool.eq_false_iff.mp h)

theorem taken_of_held {e : Entry} (h : held s i = some e) :
    s.isFree i = false ∧ e = .ofTask (s.tasks i) := by
  unfold held at h
  split at h
  next => cases h
  next hno => exact ⟨Bool.eq_false_iff.mpr hno, (Option.some.inj h).symm⟩

theorem held_congr (hf : t.isFree i = s.isFree i)
    (ht : Entry.ofTask (t.tasks i) = .ofTask (s.tasks i)) : held t i = held s i := by
  rw [held, held, hf, ht]

theorem held_atCount (s : State) (cnt : BitVec 32) : held (s.atCount cnt) = held s := rfl

/-! ## Arming and dropping -/

/-- A task that is armed in a free slot. -/
theorem held_armTask (s : State) (slot : Slot) (task : Task) (idx : BitVec 16) :
    held (armTask (claimSlot s slot task idx) slot task.periodUs) =
      Function.update (held s) slot (some (.ofTask task)) := by
  funext i
  have htasks : (armTask (claimSlot s slot task idx) slot task.periodUs).tasks =
      (armed s slot task idx).tasks := by
    rw [armTask_claimSlot, scheduleNextInterval_tasks]
    rfl
  have hfree : (armTask (claimSlot s slot task idx) slot task.periodUs).isFree i =
      (s.isFree i && decide (i ≠ slot)) := by
    rw [armTask_isFree, claimSlot_isFree]
  rw [held, hfree, htasks]
  by_cases hi : i = slot
  · subst hi
    rw [Function.update_self, armed_tasks_self, decide_eq_false (not_not_intro rfl), Bool.and_false]
    rfl
  · rw [Function.update_of_ne hi, armed_tasks_of_ne hi, decide_eq_true hi, Bool.and_true]
    rfl

theorem held_dropTask (s : State) (slot : Slot) :
    held (dropTask s slot) = Function.update (held s) slot none := by
  funext i
  by_cases hi : i = slot
  · subst hi
    rw [Function.update_self]
    exact held_of_free (by simp)
  · rw [Function.update_of_ne hi]
    exact held_congr (by simp [hi]) (by simp)

/-! ## The calls -/

/-- The id names the slot. -/
theorem slotOfId_timeout (slot : Slot) (idx : BitVec 16) :
    slotOfId (BitVec.ofNat 16 slot.val + idx * BitVec.ofNat 16 kMaxTasks) = slot := by
  have hslot := slot.isLt
  have hlow : ((BitVec.ofNat 16 slot.val + idx * BitVec.ofNat 16 kMaxTasks) &&& 15#16).toNat =
      slot.val := by
    rw [BitVec.toNat_and, show (15#16).toNat = 2 ^ 4 - 1 by rfl, Nat.and_two_pow_sub_one_eq_mod,
      BitVec.toNat_add, BitVec.toNat_mul, BitVec.toNat_ofNat, BitVec.toNat_ofNat]
    simp only [kMaxTasks]
    omega
  rw [slotOfId, hlow]
  exact Fin.ext (Nat.mod_eq_of_lt hslot)

/-- `set_timeout` adds an entry under its id, or does nothing. -/
theorem held_setTimeout (us : BitVec 32) (f : Option Callback) (s : State) :
    setTimeout us f s = (invalidId, s) ∨
      ∃ slot, held s slot = none ∧ slotOfId (setTimeout us f s).1 = slot ∧
        held (setTimeout us f s).2 =
          Function.update (held s) slot (some ⟨f, false, (setTimeout us f s).1⟩) := by
  rcases setTimeout_cases us f s with
    h | ⟨slot, task, -, hf, hr, hc, -, -, -, hid, h⟩
  · exact .inl h
  · refine .inr ⟨slot, held_of_free hf, ?_, ?_⟩
    · rw [h, hid]
      exact slotOfId_timeout slot _
    · rw [h, held_armTask, Entry.ofTask, hr, hc]

/-- `cancel_timeout` drops an entry or none, and always the one-shot with its id. -/
theorem held_cancelTimeout (id : BitVec 16) (s : State) (i : Slot) :
    (held (cancelTimeout id s).2 i = none ∨ held (cancelTimeout id s).2 i = held s i) ∧
      (slotOfId id = i → ∀ f, held s i = some ⟨f, false, id⟩ →
        held (cancelTimeout id s).2 i = none) := by
  rcases cancelTimeout_cases id s with h | ⟨-, -, -, h⟩
  · refine ⟨.inr (by rw [h]), ?_⟩
    rintro rfl f hsome
    -- the call would have dropped it
    obtain ⟨hf, htask⟩ := taken_of_held hsome
    have hr : (s.tasks (slotOfId id)).repeating = false := (congrArg Entry.repeating htask).symm
    have hid : (s.tasks (slotOfId id)).id = id := (congrArg Entry.id htask).symm
    have hbit : ¬ s.freeBitmap &&& bit (slotOfId id) ≠ 0#32 := by
      rw [and_bit_ne_zero]
      exact fun hb => Bool.false_ne_true (hf.symm.trans hb)
    have hdrop : cancelTimeout id s = (true, dropTask s (slotOfId id)) := by
      unfold cancelTimeout
      dsimp only
      rw [hr, if_neg Bool.false_ne_true, if_neg (not_not_intro hid), if_neg hbit]
    rw [hdrop] at h
    cases h
  · rw [h]
    show (held (dropTask s (slotOfId id)) i = none ∨ held (dropTask s (slotOfId id)) i = held s i) ∧
      (_ → ∀ f, _ → held (dropTask s (slotOfId id)) i = none)
    rw [held_dropTask]
    by_cases hi : i = slotOfId id
    · rw [hi, Function.update_self]
      exact ⟨.inl rfl, fun _ _ _ => rfl⟩
    · rw [Function.update_of_ne hi]
      exact ⟨.inr rfl, fun heq => absurd heq.symm hi⟩

/-- `register_task` adds a repeating entry, or does nothing. -/
theorem held_registerTask (p : BitVec 32) (f : Option Callback) (s : State) (i : Slot) :
    held (registerTask p f s).2 i = held s i ∨
      ∃ id, held (registerTask p f s).2 i = some ⟨f, true, id⟩ := by
  rcases registerTask_cases p f s with h | ⟨slot, task, -, -, hr, hc, -, -, -, -, h⟩
  · rw [h]
    exact .inl rfl
  · rw [h, held_armTask]
    by_cases hi : i = slot
    · rw [hi, Function.update_self, Entry.ofTask, hr, hc]
      exact .inr ⟨_, rfl⟩
    · rw [Function.update_of_ne hi]
      exact .inl rfl

/-- `unregister_task` drops an entry, or none. -/
theorem held_unregisterTask (id : BitVec 16) (s : State) (i : Slot) :
    held (unregisterTask id s).2 i = none ∨ held (unregisterTask id s).2 i = held s i := by
  rcases unregisterTask_cases id s with h | ⟨hlt, -, h⟩
  · rw [h]
    exact .inr rfl
  · rw [h]
    show held (dropTask s _) i = none ∨ held (dropTask s _) i = _
    rw [held_dropTask]
    by_cases hi : i = ⟨id.toNat, hlt⟩
    · rw [hi, Function.update_self]
      exact .inl rfl
    · rw [Function.update_of_ne hi]
      exact .inr rfl

/-! ## Interrupts and dispatches -/

/-- Firing a head leaves the table as it is, and no ready bit is lost. -/
theorem held_fireHead (s : State) :
    held (fireHead s) = held s ∧ ∀ i, s.isReady i = true → (fireHead s).isReady i = true := by
  have hfired : held (fired s (frontId s)) = held s := by
    funext i
    refine held_congr rfl ?_
    by_cases hi : i = frontId s
    · subst hi
      rw [fired_tasks_self, refired]
      split
      · rfl
      · rfl
    · rw [fired_tasks_of_ne hi]
  have hready : ∀ i, s.isReady i = true → (fired s (frontId s)).isReady i = true := fun i hi => by
    rw [fired_isReady, hi]
    rfl
  rw [fireHead_eq rfl]
  split
  · exact ⟨hfired, hready⟩
  · exact ⟨hfired, hready⟩

/-- So does an interrupt. -/
theorem held_onTimerUpdate {r : State × List Slot} (h : onTimerUpdate s = some r) :
    held r.1 = held s ∧ ∀ i, s.isReady i = true → r.1.isReady i = true := by
  obtain ⟨p, hp, rfl⟩ := Option.map_eq_some_iff.mp h
  have hfold : held p.1 = held s ∧ ∀ i, s.isReady i = true → p.1.isReady i = true := by
    refine (popDue_rule (P := fun t _ => held t = held s ∧
      ∀ i, s.isReady i = true → t.isReady i = true) ?_ ?_ hp (l := [])).1
    · intro t _ ht _ _
      obtain ⟨htable, hready⟩ := held_fireHead t
      exact ⟨htable.trans ht.1, fun i hi => hready i (ht.2 i hi)⟩
    · exact ⟨rfl, fun _ hi => hi⟩
  refine ⟨Eq.trans (funext fun i => held_congr ?_ ?_) hfold.1, fun i hi => ?_⟩
  · simp only [State.isFree, scheduleNextInterval_free]
  · rw [scheduleNextInterval_tasks]
  · simp only [State.isReady, scheduleNextInterval_ready]
    exact hfold.2 i hi

/-- A dispatch drops the one-shot of its slot. -/
theorem held_finishDispatch (s : State) (slot i : Slot) :
    held (finishDispatch s slot) i =
      if i = slot ∧ (s.tasks slot).repeating = false then none else held s i := by
  by_cases hi : i = slot ∧ (s.tasks slot).repeating = false
  · obtain ⟨rfl, hr⟩ := hi
    rw [if_pos ⟨rfl, hr⟩]
    exact held_of_free (by rw [finishDispatch_isFree, hr]; simp)
  · rw [if_neg hi]
    refine held_congr ?_ (by simp)
    rw [finishDispatch_isFree]
    by_cases heq : i = slot
    · have hr : (s.tasks slot).repeating = true :=
        Bool.of_not_eq_false fun hr => hi ⟨heq, hr⟩
      rw [hr]
      simp
    · rw [decide_eq_false heq, Bool.and_false, Bool.or_false]

end StLib.Scheduler.Timeouts
