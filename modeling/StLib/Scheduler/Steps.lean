import StLib.Base.RegisterBits
import StLib.Scheduler.Queue

/-! # What each scheduler operation does

The bitmaps bit by bit, the fields each helper leaves alone, and one inversion
lemma for the API: a call changes nothing, or claims a free slot and arms it, or
drops an allocated one (`Call.run_cases`). Every invariant is derived from it. -/
namespace StLib.Scheduler.Steps

open StLib.Scheduler.Model StLib.Scheduler.Queue StLib.Base.NibbleWord

/-! ## Bitmaps -/

theorem slot_lt (i : Slot) : i.val < 32 := Nat.lt_trans i.isLt (by decide)

theorem clear_getLsbD (b : BitVec 32) (i : Slot) (j : Nat) :
    (b &&& ~~~bit i).getLsbD j = (b.getLsbD j && decide (j ≠ i.val)) := by
  rw [decide_not]
  exact Base.RegisterBits.getLsbD_clearBit (slot_lt i) b j

theorem set_getLsbD (b : BitVec 32) (i : Slot) (j : Nat) :
    (b ||| bit i).getLsbD j = (b.getLsbD j || decide (j = i.val)) :=
  Base.RegisterBits.getLsbD_setBit (slot_lt i) b j

/-- Testing a bitmap against one bit is reading that bit. -/
theorem and_bit_ne_zero (b : BitVec 32) (i : Slot) :
    b &&& bit i ≠ 0#32 ↔ b.getLsbD i.val = true :=
  (Base.RegisterBits.and_bit_eq_zero_iff (slot_lt i) b).not.trans (Bool.not_eq_false _).to_iff

theorem shift_eq_bit {n : Nat} (h : n < kMaxTasks) : 1#32 <<< n = bit ⟨n, h⟩ := rfl

/-! ## Fields left alone -/

section frames
variable (s : State) (i j : Slot)

@[simp] theorem scheduleNextInterval_tasks : (scheduleNextInterval s).tasks = s.tasks := by
  unfold scheduleNextInterval; dsimp only; split_ifs <;> rfl
@[simp] theorem scheduleNextInterval_sorted :
    (scheduleNextInterval s).sortedTaskIds = s.sortedTaskIds := by
  unfold scheduleNextInterval; dsimp only; split_ifs <;> rfl
@[simp] theorem scheduleNextInterval_count :
    (scheduleNextInterval s).activeTaskCount = s.activeTaskCount := by
  unfold scheduleNextInterval; dsimp only; split_ifs <;> rfl
@[simp] theorem scheduleNextInterval_ready :
    (scheduleNextInterval s).readyBitmap = s.readyBitmap := by
  unfold scheduleNextInterval; dsimp only; split_ifs <;> rfl
@[simp] theorem scheduleNextInterval_free :
    (scheduleNextInterval s).freeBitmap = s.freeBitmap := by
  unfold scheduleNextInterval; dsimp only; split_ifs <;> rfl

@[simp] theorem scheduleNextInterval_timeoutIdx :
    (scheduleNextInterval s).timeoutIdx = s.timeoutIdx := by
  unfold scheduleNextInterval; dsimp only; split_ifs <;> rfl

@[simp] theorem removeSorted_tasks : (removeSorted s i).tasks = s.tasks := by
  unfold removeSorted; dsimp only; split_ifs <;> rfl
@[simp] theorem removeSorted_ready : (removeSorted s i).readyBitmap = s.readyBitmap := by
  unfold removeSorted; dsimp only; split_ifs <;> rfl
@[simp] theorem removeSorted_free : (removeSorted s i).freeBitmap = s.freeBitmap := by
  unfold removeSorted; dsimp only; split_ifs <;> rfl
@[simp] theorem removeSorted_tick : (removeSorted s i).globalTickUs = s.globalTickUs := by
  unfold removeSorted; dsimp only; split_ifs <;> rfl
@[simp] theorem removeSorted_interval :
    (removeSorted s i).currentIntervalUs = s.currentIntervalUs := by
  unfold removeSorted; dsimp only; split_ifs <;> rfl
@[simp] theorem removeSorted_timer : (removeSorted s i).timer = s.timer := by
  unfold removeSorted; dsimp only; split_ifs <;> rfl

@[simp] theorem removeSorted_timeoutIdx : (removeSorted s i).timeoutIdx = s.timeoutIdx := by
  unfold removeSorted; dsimp only; split_ifs <;> rfl

@[simp] theorem releaseSlot_tasks : (releaseSlot s i).tasks = s.tasks := rfl
@[simp] theorem releaseSlot_isFree :
    (releaseSlot s i).isFree j = (s.isFree j || decide (j = i)) := by
  simp only [State.isFree, releaseSlot, set_getLsbD, Fin.ext_iff]
@[simp] theorem releaseSlot_isReady :
    (releaseSlot s i).isReady j = (s.isReady j && decide (j ≠ i)) := by
  simp only [State.isReady, releaseSlot, clear_getLsbD, Ne, Fin.ext_iff]

@[simp] theorem dropTask_timeoutIdx : (dropTask s i).timeoutIdx = s.timeoutIdx := by
  simp [dropTask, releaseSlot]
@[simp] theorem dropTask_tasks : (dropTask s i).tasks = s.tasks := by simp [dropTask]
@[simp] theorem dropTask_isFree : (dropTask s i).isFree j = (s.isFree j || decide (j = i)) := by
  rw [show (dropTask s i).isFree j = (releaseSlot (removeSorted s i) i).isFree j by
    simp [dropTask, State.isFree], releaseSlot_isFree]
  simp [State.isFree]
@[simp] theorem dropTask_isReady :
    (dropTask s i).isReady j = (s.isReady j && decide (j ≠ i)) := by
  rw [show (dropTask s i).isReady j = (releaseSlot (removeSorted s i) i).isReady j by
    simp [dropTask, State.isReady], releaseSlot_isReady]
  simp [State.isReady]

end frames

/-! ## Allocation -/

/-- The slot `idx` is taken. -/
def takeSlot (s : State) (idx : Slot) : State :=
  { s with freeBitmap := s.freeBitmap &&& ~~~bit idx }

theorem takeSlot_isFree (s : State) (i j : Slot) :
    (takeSlot s i).isFree j = (s.isFree j && decide (j ≠ i)) := by
  simp only [State.isFree, takeSlot, clear_getLsbD, Ne, Fin.ext_iff]

theorem ffs_index {b : BitVec 32} (h : b ≠ 0#32) :
    (BitVec.ofNat 32 (builtinFfs b) - 1#32).toNat = b.ctz.toNat := by
  have hc := BitVec.ctz_lt_iff_ne_zero.mpr h
  have hc' : b.ctz.toNat < 32 := by simpa [BitVec.lt_def] using hc
  rw [builtinFfs, if_neg h, BitVec.ofNat_add, BitVec.add_sub_cancel, BitVec.toNat_ofNat,
    Nat.mod_eq_of_lt (by omega)]

/-- An allocated slot was the lowest free one. -/
theorem allocateSlot_some {s s' : State} {i : Slot} (h : allocateSlot s = (some i, s')) :
    s.isFree i = true ∧ (∀ j, j < i → s.isFree j = false) ∧ s' = takeSlot s i := by
  unfold allocateSlot at h
  dsimp only at h
  split at h
  next hlt =>
    simp only [Prod.mk.injEq, Option.some.injEq] at h
    obtain ⟨rfl, rfl⟩ := h
    have hne : s.freeBitmap ≠ 0#32 := by
      intro h0
      rw [h0] at hlt
      exact absurd hlt (by decide)
    refine ⟨?_, fun j hj => ?_, rfl⟩
    · show s.freeBitmap.getLsbD _ = true
      simp only [ffs_index hne]
      exact BitVec.getLsbD_true_ctz_of_ne_zero hne
    · apply BitVec.getLsbD_false_of_lt_ctz
      simpa only [Fin.lt_def, ffs_index hne] using hj
  next => simp at h

/-- Allocation fails only when no slot is free. -/
theorem allocateSlot_none {s s' : State} (h : allocateSlot s = (none, s')) :
    (∀ i, s.isFree i = false) ∧ s' = s := by
  unfold allocateSlot at h
  dsimp only at h
  split at h
  next => simp at h
  next hge =>
    simp only [Prod.mk.injEq, true_and] at h
    refine ⟨fun i => ?_, h.symm⟩
    by_cases h0 : s.freeBitmap = 0#32
    · simp [State.isFree, h0]
    · rw [ffs_index h0] at hge
      have := i.isLt
      exact BitVec.getLsbD_false_of_lt_ctz (by simp only [kMaxTasks] at hge; omega)

/-- With a free slot, allocation succeeds. -/
theorem allocateSlot_isSome {s : State} {i : Slot} (h : s.isFree i = true) :
    ∃ j, allocateSlot s = (some j, takeSlot s j) := by
  cases hA : allocateSlot s with
  | mk r s' =>
    cases r with
    | none => rw [(allocateSlot_none hA).1 i] at h; cases h
    | some j => exact ⟨j, by rw [(allocateSlot_some hA).2.2]⟩

/-! ## Calls -/

/-- A free slot taken for `task`. -/
def claimSlot (s : State) (slot : Slot) (task : Task) (timeoutIdx : BitVec 16) : State :=
  { (takeSlot s slot).setTask slot task with timeoutIdx }

/-- A period the API accepts, in range. -/
def GoodPeriod (p : BitVec 32) : Prop := 0 < p.toNat ∧ p.toNat < 2 ^ 31

theorem goodPeriod_of_accepted {p : BitVec 32}
    (h : ¬ kMaxIntervalUs ≤ (if p = 0#32 then 1#32 else p).toNat) :
    GoodPeriod (if p = 0#32 then 1#32 else p) := by
  have hk : kMaxIntervalUs = 2 ^ 31 := by decide
  rw [hk] at h
  refine ⟨?_, by omega⟩
  split
  · decide
  next hne => exact Nat.pos_of_ne_zero fun h0 => hne (BitVec.eq_of_toNat_eq (by simpa using h0))

/-- What `register_task` does: nothing, or it claims the lowest free slot for a
repeating task and arms it. -/
theorem registerTask_cases (p : BitVec 32) (f : Option Callback) (s : State) :
    registerTask p f s = (invalidId, s) ∨
    ∃ slot task, (allocateSlot s).1 = some slot ∧ s.isFree slot = true ∧
      task.repeating = true ∧ task.callback = f ∧ f.isSome = true ∧
      task.periodUs = (if p = 0#32 then 1#32 else p) ∧ GoodPeriod task.periodUs ∧
      task.id = BitVec.ofNat 16 slot.val ∧
      registerTask p f s =
        (task.id, armTask (claimSlot s slot task s.timeoutIdx) slot task.periodUs) := by
  unfold registerTask
  cases f with
  | none => exact .inl rfl
  | some f =>
    dsimp only
    have good := @goodPeriod_of_accepted p
    generalize (if p = 0#32 then 1#32 else p) = q at good ⊢
    split
    next => exact .inl rfl
    next hp =>
      cases hA : allocateSlot s with
      | mk r s' =>
        cases r with
        | none => left; rw [(allocateSlot_none hA).2]
        | some slot =>
          obtain ⟨hfree, -, rfl⟩ := allocateSlot_some hA
          exact .inr ⟨slot, { s.tasks slot with
            callback := some f, periodUs := q, repeating := true, id := BitVec.ofNat 16 slot.val },
            rfl, hfree, rfl, rfl, rfl, rfl, good hp, rfl, rfl⟩

/-- An accepted period and a free slot are all `register_task` needs. -/
theorem registerTask_succeeds {s : State} {p : BitVec 32} {f : Callback} {i : Slot}
    (hp : (if p = 0#32 then 1#32 else p).toNat < kMaxIntervalUs) (hf : s.isFree i = true) :
    ∃ slot task, (allocateSlot s).1 = some slot ∧ s.isFree slot = true ∧ task.repeating = true ∧
      task.callback = some f ∧ task.periodUs = (if p = 0#32 then 1#32 else p) ∧
      GoodPeriod task.periodUs ∧
      registerTask p (some f) s = (BitVec.ofNat 16 slot.val,
        armTask (claimSlot s slot task s.timeoutIdx) slot task.periodUs) := by
  rcases registerTask_cases p (some f) s with
    h | ⟨slot, task, ha, hs, hr, hc, -, hq, hg, hid, h⟩
  · -- the id returned would be the invalid one
    obtain ⟨j, hj⟩ := allocateSlot_isSome hf
    have hid := congrArg Prod.fst h
    simp only [registerTask, if_neg (Nat.not_le_of_lt hp), hj] at hid
    have := congrArg BitVec.toNat hid
    rw [BitVec.toNat_ofNat, Nat.mod_eq_of_lt (by omega)] at this
    have := j.isLt
    simp [invalidId] at *
    omega
  · exact ⟨slot, task, ha, hs, hr, hc, hq, hg, hid ▸ h⟩

theorem period_of_goodPeriod {p : BitVec 32} (h : GoodPeriod p) :
    (if p = 0#32 then 1#32 else p) = p := by
  refine if_neg fun h0 => ?_
  have := h.1
  rw [h0] at this
  exact absurd this (by decide)

theorem accepted_of_goodPeriod {p : BitVec 32} (h : GoodPeriod p) :
    (if p = 0#32 then 1#32 else p).toNat < kMaxIntervalUs := by
  rw [period_of_goodPeriod h, show kMaxIntervalUs = 2 ^ 31 by decide]
  exact h.2

/-- What `set_timeout` does: nothing, or it claims the lowest free slot for a
one-shot task and arms it. -/
theorem setTimeout_cases (p : BitVec 32) (f : Option Callback) (s : State) :
    setTimeout p f s = (invalidId, s) ∨
    ∃ slot task, (allocateSlot s).1 = some slot ∧ s.isFree slot = true ∧
      task.repeating = false ∧ task.callback = f ∧ f.isSome = true ∧
      task.periodUs = (if p = 0#32 then 1#32 else p) ∧ GoodPeriod task.periodUs ∧
      task.id = BitVec.ofNat 16 slot.val + s.timeoutIdx * BitVec.ofNat 16 kMaxTasks ∧
      setTimeout p f s =
        (task.id, armTask (claimSlot s slot task (s.timeoutIdx + 2#16)) slot task.periodUs) := by
  unfold setTimeout
  cases f with
  | none => exact .inl rfl
  | some f =>
    dsimp only
    have good := @goodPeriod_of_accepted p
    generalize (if p = 0#32 then 1#32 else p) = q at good ⊢
    split
    next => exact .inl rfl
    next hp =>
      cases hA : allocateSlot s with
      | mk r s' =>
        cases r with
        | none => left; rw [(allocateSlot_none hA).2]
        | some slot =>
          obtain ⟨hfree, -, rfl⟩ := allocateSlot_some hA
          exact .inr ⟨slot, { s.tasks slot with
            callback := some f, periodUs := q, repeating := false,
            id := BitVec.ofNat 16 slot.val + s.timeoutIdx * BitVec.ofNat 16 kMaxTasks },
            rfl, hfree, rfl, rfl, rfl, rfl, good hp, rfl, rfl⟩

theorem slotOfId_lt {id : BitVec 16} (h : id.toNat < kMaxTasks) : slotOfId id = ⟨id.toNat, h⟩ := by
  apply Fin.ext
  simp only [slotOfId, Fin.val_ofNat, BitVec.toNat_and, BitVec.toNat_ofNat]
  rw [show (15 : Nat) % 2 ^ 16 = 2 ^ 4 - 1 by rfl, Nat.and_two_pow_sub_one_eq_mod]
  simp only [kMaxTasks] at h
  omega

/-- What `unregister_task` does: nothing, or it drops an allocated slot. -/
theorem unregisterTask_cases (id : BitVec 16) (s : State) :
    unregisterTask id s = (false, s) ∨
    ∃ h : id.toNat < kMaxTasks, s.isFree ⟨id.toNat, h⟩ = false ∧
      unregisterTask id s = (true, dropTask s ⟨id.toNat, h⟩) := by
  unfold unregisterTask
  split
  next h =>
    split
    next => exact .inl rfl
    next hf =>
      refine .inr ⟨h, ?_, rfl⟩
      rw [shift_eq_bit h, and_bit_ne_zero] at hf
      simpa [State.isFree] using hf
  next => exact .inl rfl

/-- What `cancel_timeout` does: nothing, or it drops an allocated one-shot slot
that carries the id. -/
theorem cancelTimeout_cases (id : BitVec 16) (s : State) :
    cancelTimeout id s = (false, s) ∨
    (s.isFree (slotOfId id) = false ∧ (s.tasks (slotOfId id)).repeating = false ∧
      (s.tasks (slotOfId id)).id = id ∧ cancelTimeout id s = (true, dropTask s (slotOfId id))) := by
  unfold cancelTimeout
  dsimp only
  split
  next => exact .inl rfl
  next hr =>
    split
    next => exact .inl rfl
    next hid =>
      split
      next => exact .inl rfl
      next hf =>
        rw [and_bit_ne_zero] at hf
        exact .inr ⟨by simpa [State.isFree] using hf, by simpa using hr, by simpa using hid, rfl⟩

/-- The slot an adding call is said to take is the one allocation gives it. -/
theorem adds_eq_some {c : Call} {s : State} {slot : Slot} (ha : (allocateSlot s).1 = some slot)
    (hf : (c.run s).isFree slot = false) : c.adds s = some slot := by
  rw [Call.adds, ha, Option.filter_some, hf]
  rfl

/-- A call that frees what was free adds nothing. -/
theorem adds_eq_none {c : Call} {s : State}
    (h : ∀ i, s.isFree i = true → (c.run s).isFree i = true) : c.adds s = none := by
  rw [Call.adds]
  cases hA : allocateSlot s with
  | mk r s' =>
    cases r with
    | none => rfl
    | some slot => simp [Option.filter_some, h slot (allocateSlot_some hA).1]

theorem armTask_isFree (s : State) (slot i : Slot) (p : BitVec 32) :
    (armTask s slot p).isFree i = s.isFree i := by
  simp only [armTask, State.isFree, scheduleNextInterval_free]
  rfl

theorem claimSlot_isFree (s : State) (slot i : Slot) (task : Task) (idx : BitVec 16) :
    (claimSlot s slot task idx).isFree i = (s.isFree i && decide (i ≠ slot)) :=
  takeSlot_isFree s slot i

/-- **Every call**: it changes nothing, or claims a free slot and arms it, or
drops an allocated slot. -/
theorem Call.run_cases (c : Call) (s : State) :
    (c.run s = s ∧ c.removes s = none ∧ c.adds s = none) ∨
    (∃ slot task idx, s.isFree slot = true ∧ GoodPeriod task.periodUs ∧
      task.periodUs = c.periodUs ∧ c.removes s = none ∧ c.adds s = some slot ∧
      c.run s = armTask (claimSlot s slot task idx) slot task.periodUs) ∨
    (∃ slot, s.isFree slot = false ∧ c.removes s = some slot ∧ c.adds s = none ∧
      c.run s = dropTask s slot) := by
  have nothing : ∀ c : Call, c.run s = s → c.adds s = none := fun c h =>
    adds_eq_none fun i hi => by rw [h, hi]
  have dropped : ∀ (c : Call) slot, c.run s = dropTask s slot → c.adds s = none := fun c slot h =>
    adds_eq_none fun i hi => by rw [h, dropTask_isFree, hi, Bool.true_or]
  have added : ∀ (c : Call) slot task idx p, (allocateSlot s).1 = some slot →
      c.run s = armTask (claimSlot s slot task idx) slot p → c.adds s = some slot :=
    fun c slot task idx p ha h => adds_eq_some ha (by
      rw [h, armTask_isFree, claimSlot_isFree]
      simp)
  cases c with
  | registerTask p f =>
    rcases registerTask_cases p f s with h | ⟨slot, task, ha, hfree, -, -, -, hper, hp, -, h⟩
    · have hrun : (Call.registerTask p f).run s = s := congrArg Prod.snd h
      exact .inl ⟨hrun, rfl, nothing _ hrun⟩
    · have hrun := congrArg Prod.snd h
      exact .inr (.inl ⟨slot, task, _, hfree, hp, hper, rfl, added _ _ _ _ _ ha hrun, hrun⟩)
  | setTimeout p f =>
    rcases setTimeout_cases p f s with h | ⟨slot, task, ha, hfree, -, -, -, hper, hp, -, h⟩
    · have hrun : (Call.setTimeout p f).run s = s := congrArg Prod.snd h
      exact .inl ⟨hrun, rfl, nothing _ hrun⟩
    · have hrun := congrArg Prod.snd h
      exact .inr (.inl ⟨slot, task, _, hfree, hp, hper, rfl, added _ _ _ _ _ ha hrun, hrun⟩)
  | unregisterTask id =>
    rcases unregisterTask_cases id s with h | ⟨hid, hfree, h⟩
    · have hrun : (Call.unregisterTask id).run s = s := congrArg Prod.snd h
      exact .inl ⟨hrun, by simp [Call.removes, h], nothing _ hrun⟩
    · have hrun : (Call.unregisterTask id).run s = dropTask s ⟨id.toNat, hid⟩ :=
        congrArg Prod.snd h
      exact .inr (.inr ⟨_, hfree, by simp [Call.removes, h, slotOfId_lt hid],
        dropped _ _ hrun, hrun⟩)
  | cancelTimeout id =>
    rcases cancelTimeout_cases id s with h | ⟨hfree, -, -, h⟩
    · have hrun : (Call.cancelTimeout id).run s = s := congrArg Prod.snd h
      exact .inl ⟨hrun, by simp [Call.removes, h], nothing _ hrun⟩
    · have hrun : (Call.cancelTimeout id).run s = dropTask s (slotOfId id) := congrArg Prod.snd h
      exact .inr (.inr ⟨_, hfree, by simp [Call.removes, h], dropped _ _ hrun, hrun⟩)

/-! ## Evaluating a step -/

/-- The two states agree in every field. -/
def agrees (s t : State) : Bool :=
  decide (∀ i, s.tasks i = t.tasks i) && decide (s.sortedTaskIds = t.sortedTaskIds) &&
    decide (s.activeTaskCount = t.activeTaskCount) && decide (s.readyBitmap = t.readyBitmap) &&
    decide (s.freeBitmap = t.freeBitmap) && decide (s.globalTickUs = t.globalTickUs) &&
    decide (s.currentIntervalUs = t.currentIntervalUs) && decide (s.timeoutIdx = t.timeoutIdx) &&
    decide (s.failingId = t.failingId) && decide (s.timer = t.timer)

theorem eq_of_agrees {s t : State} (h : agrees s t = true) : s = t := by
  simp only [agrees, Bool.and_eq_true, decide_eq_true_eq] at h
  obtain ⟨⟨⟨⟨⟨⟨⟨⟨⟨h1, h2⟩, h3⟩, h4⟩, h5⟩, h6⟩, h7⟩, h8⟩, h9⟩, h10⟩ := h
  cases s
  cases t
  simp only [State.mk.injEq]
  exact ⟨funext h1, h2, h3, h4, h5, h6, h7, h8, h9, h10⟩

/-- A step whose result agrees with a given state leads to it. -/
theorem step_of_agrees {s t : State} {l : Label}
    (h : (l.2.run (s.atCount l.1)).map (agrees t) = some true) : Step s l t := by
  obtain ⟨u, hu, ht⟩ := Option.map_eq_some_iff.mp h
  rw [eq_of_agrees ht]
  exact hu

end StLib.Scheduler.Steps
