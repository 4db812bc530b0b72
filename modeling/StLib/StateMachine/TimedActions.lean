import StLib.Scheduler.Invariant

/-! # Cyclic actions and the scheduler

`State::register_all_timed_actions` and `State::unregister_all_timed_actions` of
`StateMachine.hpp`, on the list of a state's cyclic actions and the scheduler.
With enough free slots and periods the scheduler accepts, registering puts every
action in a slot of its own (`registerAll_spec`); unregistering frees exactly the
slots of the actions that are on (`unregisterAll_spec`). -/
namespace StLib.StateMachine.TimedActions

open StLib.Scheduler.Model StLib.Scheduler.Queue StLib.Scheduler.Steps StLib.Scheduler.Invariant

/-- `AlarmType`. -/
inductive AlarmType
  | milliseconds
  | microseconds
deriving DecidableEq

structure TimedAction where
  action : Option Callback := none
  period : BitVec 32 := 0#32
  alarmPrecision : AlarmType := .milliseconds
  id : BitVec 8 := 255#8
  isOn : Bool := false
deriving DecidableEq

/-- The period handed to the scheduler. -/
def TimedAction.periodUs (a : TimedAction) : BitVec 32 :=
  match a.alarmPrecision with
  | .milliseconds => a.period * 1000#32
  | .microseconds => a.period

/-- One round of `unregister_all_timed_actions`. -/
def unregisterOne (a : TimedAction) (s : State) : TimedAction × State :=
  if a.action.isNone then (a, s)
  else if !a.isOn then (a, s)
  else ({ a with isOn := false }, (unregisterTask (a.id.setWidth 16) s).2)

/-- `unregister_all_timed_actions`. -/
def unregisterAll : List TimedAction → State → List TimedAction × State
  | [], s => ([], s)
  | a :: rest, s =>
    let r := unregisterAll rest (unregisterOne a s).2
    ((unregisterOne a s).1 :: r.1, r.2)

/-- The loop of `register_all_timed_actions`, with the actions already done. When
a registration fails the done ones are unregistered; the flag is false then. -/
def registerLoop : List TimedAction → List TimedAction → State → List TimedAction × State × Bool
  | done, [], s => (done, s, true)
  | done, a :: rest, s =>
    if a.action.isNone then registerLoop (done ++ [a]) rest s
    else
      let r := registerTask a.periodUs a.action s
      let a := { a with id := r.1.setWidth 8 }
      if a.id.setWidth 16 = invalidId then
        let u := unregisterAll done r.2
        (u.1 ++ a :: rest, u.2, false)
      else registerLoop (done ++ [{ a with isOn := true }]) rest r.2

/-- `register_all_timed_actions`. -/
def registerAll (l : List TimedAction) (s : State) : List TimedAction × State × Bool :=
  registerLoop [] l s

/-! ## Slots -/

/-- The slot of a registered action. -/
def TimedAction.slot (a : TimedAction) : Slot := slotOfId (a.id.setWidth 16)

/-- The slots of the actions that are on. -/
def slots (l : List TimedAction) : List Slot := (l.filter (·.isOn)).map TimedAction.slot

/-- The scheduler's task in the slot of `a` is the one `a` registered. -/
structure Registered (s : State) (a : TimedAction) : Prop where
  action : a.action.isSome = true
  id : a.id.toNat < kMaxTasks
  taken : s.isFree a.slot = false
  repeating : (s.tasks a.slot).repeating = true
  callback : (s.tasks a.slot).callback = a.action
  period : (s.tasks a.slot).periodUs = if a.periodUs = 0#32 then 1#32 else a.periodUs

/-- `a'` is `a` up to the id and the flag. -/
def SameAction (a a' : TimedAction) : Prop :=
  a'.action = a.action ∧ a'.period = a.period ∧ a'.alarmPrecision = a.alarmPrecision

theorem Registered.congr {s t : State} {a : TimedAction} (h : Registered s a)
    (hf : t.isFree a.slot = false) (ht : t.tasks a.slot = s.tasks a.slot) : Registered t a :=
  ⟨h.action, h.id, hf, ht ▸ h.repeating, ht ▸ h.callback, ht ▸ h.period⟩

/-- The scheduler's lists agree. -/
def Sound (s : State) : Prop := ∃ q, Consistent s q

/-- A slot with a repeating task holds no fired timeout. -/
theorem firedTimeout_of_repeating {s : State} {i : Slot} (h : (s.tasks i).repeating = true) :
    firedTimeout s i = false := by
  simp [firedTimeout, h]

/-! ## Unregistering -/

theorem slotOfId_setWidth {a : TimedAction} (h : a.id.toNat < kMaxTasks) :
    a.slot = ⟨a.id.toNat, h⟩ := by
  have hid : (a.id.setWidth 16).toNat = a.id.toNat := by
    have := a.id.isLt
    rw [BitVec.toNat_setWidth, Nat.mod_eq_of_lt (by omega)]
  rw [TimedAction.slot, slotOfId_lt (by omega)]
  simp only [hid]

/-- Unregistering a registered action drops its slot. -/
theorem unregisterOne_on {s : State} {a : TimedAction} (h : Registered s a) (hon : a.isOn = true) :
    unregisterOne a s = ({ a with isOn := false }, dropTask s a.slot) := by
  have hid : (a.id.setWidth 16).toNat = a.id.toNat := by
    have := a.id.isLt
    rw [BitVec.toNat_setWidth, Nat.mod_eq_of_lt (by omega)]
  have hslot : (⟨(a.id.setWidth 16).toNat, by rw [hid]; exact h.id⟩ : Slot) = a.slot := by
    rw [slotOfId_setWidth h.id]
    simp only [hid]
  have hdrop : unregisterTask (a.id.setWidth 16) s = (true, dropTask s a.slot) := by
    have hfree := h.taken
    rw [← hslot] at hfree ⊢
    rw [unregisterTask, dif_pos (by rw [hid]; exact h.id), shift_eq_bit (by rw [hid]; exact h.id),
      if_neg]
    rw [and_bit_ne_zero]
    simpa [State.isFree] using hfree
  have hsome : a.action.isNone = false := by simpa using h.action
  simp [unregisterOne, hsome, hon, hdrop]

theorem unregisterOne_off {s : State} {a : TimedAction} (hoff : a.isOn = false) :
    unregisterOne a s = (a, s) := by
  unfold unregisterOne
  simp [hoff]

/-- What unregistering the list `l` in `s` leaves. -/
structure Unregistered (s : State) (l : List TimedAction) (r : List TimedAction × State) : Prop where
  same : List.Forall₂ SameAction l r.1
  off : ∀ a ∈ r.1, a.isOn = false
  free : ∀ i, r.2.isFree i = (s.isFree i || decide (i ∈ slots l))
  tasks : r.2.tasks = s.tasks
  sound : Sound s → Sound r.2

theorem slots_cons_on {a : TimedAction} {l : List TimedAction} (h : a.isOn = true) :
    slots (a :: l) = a.slot :: slots l := by
  simp [slots, h]

theorem slots_cons_off {a : TimedAction} {l : List TimedAction} (h : a.isOn = false) :
    slots (a :: l) = slots l := by
  simp [slots, h]

theorem mem_slots {a : TimedAction} {l : List TimedAction} (ha : a ∈ l) (hon : a.isOn = true) :
    a.slot ∈ slots l :=
  List.mem_map_of_mem (List.mem_filter.mpr ⟨ha, hon⟩)

/-- Unregistering frees exactly the slots of the actions that are on. -/
theorem unregisterAll_spec : ∀ {l : List TimedAction} {s : State},
    (∀ a ∈ l, a.isOn = true → Registered s a) → (slots l).Nodup →
    Unregistered s l (unregisterAll l s)
  | [], s, _, _ => ⟨.nil, by simp [unregisterAll], by simp [unregisterAll, slots], rfl, id⟩
  | a :: rest, s, hreg, hnd => by
    have ha := hreg a (by simp)
    cases hon : a.isOn with
    | false =>
      rw [slots_cons_off hon] at hnd
      have ih := unregisterAll_spec (l := rest) (s := s)
        (fun b hb => hreg b (List.mem_cons_of_mem _ hb)) hnd
      simp only [unregisterAll, unregisterOne_off hon]
      refine ⟨.cons ⟨rfl, rfl, rfl⟩ ih.same, ?_, ?_, ih.tasks, ih.sound⟩
      · exact List.forall_mem_cons.mpr ⟨hon, ih.off⟩
      · rw [slots_cons_off hon]
        exact ih.free
    | true =>
      rw [slots_cons_on hon] at hnd
      obtain ⟨hni, hnd⟩ := List.nodup_cons.mp hnd
      have hrest : ∀ b ∈ rest, b.isOn = true → Registered (dropTask s a.slot) b := by
        intro b hb hbon
        have hb' := hreg b (List.mem_cons_of_mem _ hb) hbon
        have hne : b.slot ≠ a.slot := fun he => hni (he ▸ mem_slots hb hbon)
        exact hb'.congr (by simp [hb'.taken, hne]) (by simp)
      have ih := unregisterAll_spec hrest hnd
      simp only [unregisterAll, unregisterOne_on (ha hon) hon]
      refine ⟨.cons ⟨rfl, rfl, rfl⟩ ih.same, ?_, ?_, by rw [ih.tasks]; simp, ?_⟩
      · exact List.forall_mem_cons.mpr ⟨rfl, ih.off⟩
      · intro i
        rw [slots_cons_on hon, ih.free, dropTask_isFree]
        by_cases hi : i = a.slot <;> simp [hi]
      · rintro ⟨q, hq⟩
        exact ih.sound ⟨_, hq.drop (ha hon).taken fun h0 =>
          h0 ▸ firedTimeout_of_repeating (ha hon).repeating⟩

/-! ## Registering -/

/-- The scheduler accepts the action's period. -/
def Accepted (a : TimedAction) : Prop :=
  (if a.periodUs = 0#32 then 1#32 else a.periodUs).toNat < kMaxIntervalUs

/-- The number of free slots. -/
def freeCount (s : State) : Nat := (Finset.univ.filter fun i => s.isFree i = true).card

/-- The actions can be registered: their periods are accepted and there are slots
for all of them. -/
def Registrable (l : List TimedAction) (s : State) : Prop :=
  (∀ a ∈ l, a.action.isSome = true → Accepted a) ∧
    l.countP (fun a => a.action.isSome) ≤ freeCount s

/-- What registering the list `l` in `s` leaves. -/
structure RegisteredAll (s : State) (l l' : List TimedAction) (s' : State) : Prop where
  same : List.Forall₂ SameAction l l'
  on : ∀ a ∈ l', a.isOn = a.action.isSome
  registered : ∀ a ∈ l', a.isOn = true → Registered s' a
  nodup : (slots l').Nodup
  fresh : ∀ i ∈ slots l', s.isFree i = true
  free : ∀ i, s'.isFree i = (s.isFree i && !decide (i ∈ slots l'))
  tasks : ∀ i, i ∉ slots l' → s'.tasks i = s.tasks i
  sound : Sound s → Sound s'

theorem freeCount_claim {s t : State} {slot : Slot} (hs : s.isFree slot = true)
    (ht : ∀ i, t.isFree i = (s.isFree i && decide (i ≠ slot))) :
    freeCount t + 1 = freeCount s := by
  have herase : (Finset.univ.filter fun i => t.isFree i = true) =
      (Finset.univ.filter fun i => s.isFree i = true).erase slot := by
    ext i
    simp [ht, and_comm]
  rw [freeCount, freeCount, herase, Finset.card_erase_add_one (by simpa using hs)]

theorem exists_free {s : State} (h : 0 < freeCount s) : ∃ i, s.isFree i = true := by
  obtain ⟨i, hi⟩ := Finset.card_pos.mp h
  exact ⟨i, by simpa using hi⟩

/-- The action as `register_all_timed_actions` leaves it with the id of `slot`. -/
def stored (a : TimedAction) (slot : Slot) : TimedAction :=
  { a with id := (BitVec.ofNat 16 slot.val).setWidth 8, isOn := true }

theorem stored_id (a : TimedAction) (slot : Slot) : (stored a slot).id.toNat = slot.val := by
  have := slot.isLt
  show ((BitVec.ofNat 16 slot.val).setWidth 8).toNat = _
  rw [BitVec.toNat_setWidth, BitVec.toNat_ofNat]
  omega

theorem stored_slot (a : TimedAction) (slot : Slot) : (stored a slot).slot = slot := by
  have hlt : (stored a slot).id.toNat < kMaxTasks := by rw [stored_id]; exact slot.isLt
  rw [slotOfId_setWidth hlt]
  exact Fin.ext (stored_id a slot)

/-- The id of a slot is not taken for the invalid one. -/
theorem stored_valid (slot : Slot) :
    ((BitVec.ofNat 16 slot.val).setWidth 8).setWidth 16 ≠ invalidId := by
  revert slot
  decide

/-- What registering the action `a` in `s` in the slot `slot` leaves. -/
structure RegisteredOne (s : State) (a : TimedAction) (slot : Slot) (t : State) : Prop where
  accepted : Accepted a
  fresh : s.isFree slot = true
  free : ∀ i, t.isFree i = (s.isFree i && decide (i ≠ slot))
  tasks : ∀ i, i ≠ slot → t.tasks i = s.tasks i
  registered : Registered t (stored a slot)
  queue : ∀ q, Consistent s q → ∃ pos ≤ q.length, Consistent t (q.insertIdx pos slot)

theorem RegisteredOne.sound {s t : State} {a : TimedAction} {slot : Slot}
    (h : RegisteredOne s a slot t) : Sound s → Sound t := fun ⟨q, hq⟩ =>
  let ⟨_, _, hq'⟩ := h.queue q hq
  ⟨_, hq'⟩

/-- `register_task` refuses the action and changes nothing, or takes a slot for it. -/
theorem registerTask_action {a : TimedAction} (hact : a.action.isSome = true) (s : State) :
    registerTask a.periodUs a.action s = (invalidId, s) ∨
      ∃ slot t, registerTask a.periodUs a.action s = (BitVec.ofNat 16 slot.val, t) ∧
        RegisteredOne s a slot t := by
  rcases registerTask_cases a.periodUs a.action s with
    h | ⟨slot, task, -, hslot, hrep, hcb, -, hper, hgood, hid, h⟩
  · exact .inl h
  refine .inr ⟨slot, _, by rw [h, hid], ?_⟩
  have htasks : (armTask (claimSlot s slot task s.timeoutIdx) slot task.periodUs).tasks =
      (armed s slot task s.timeoutIdx).tasks := by
    rw [armTask_claimSlot, scheduleNextInterval_tasks]
    rfl
  have hfree : ∀ i, (armTask (claimSlot s slot task s.timeoutIdx) slot task.periodUs).isFree i =
      (s.isFree i && decide (i ≠ slot)) := fun i => by
    rw [armTask_isFree, claimSlot_isFree]
  refine ⟨?_, hslot, hfree, fun i hi => ?_, ⟨?_, ?_, ?_, ?_, ?_, ?_⟩, fun q hq => ?_⟩
  · rw [Accepted, ← hper, show kMaxIntervalUs = 2 ^ 31 by decide]
    exact hgood.2
  · rw [htasks, armed_tasks_of_ne hi]
  · exact hact
  · rw [stored_id]
    exact slot.isLt
  · rw [stored_slot, hfree]
    simp
  · rw [stored_slot, htasks, armed_tasks_self]
    exact hrep
  · rw [stored_slot, htasks, armed_tasks_self]
    exact hcb
  · rw [stored_slot, htasks, armed_tasks_self]
    exact hper
  · have hh : Holds (armed s slot task s.timeoutIdx) q := hq.holds.congr rfl rfl
    exact ⟨_, insertPos_le hh slot, hq.arm hslot hgood s.timeoutIdx⟩

/-- The loop succeeds and registers what it was given. -/
theorem registerLoop_spec : ∀ {l : List TimedAction} (done : List TimedAction) {s : State},
    Registrable l s → (∀ a ∈ l, a.isOn = false) →
    ∃ l' s', registerLoop done l s = (done ++ l', s', true) ∧ RegisteredAll s l l' s'
  | [], done, s, _, _ => by
    refine ⟨[], s, by simp [registerLoop], .nil, by simp, by simp, by simp [slots], by simp [slots],
      by simp [slots], fun _ _ => rfl, id⟩
  | a :: rest, done, s, ⟨hacc, hcount⟩, hoff => by
    have hoff' : ∀ b ∈ rest, b.isOn = false := fun b hb => hoff b (List.mem_cons_of_mem _ hb)
    have hacc' : ∀ b ∈ rest, b.action.isSome = true → Accepted b := fun b hb =>
      hacc b (List.mem_cons_of_mem _ hb)
    cases hact : a.action with
    | none =>
      obtain ⟨l', s', hl, hr⟩ := registerLoop_spec (l := rest) (done ++ [a]) (s := s)
        ⟨hacc', by simpa [hact] using hcount⟩ hoff'
      have ha : a.isOn = false := hoff a (by simp)
      refine ⟨a :: l', s', by simp [registerLoop, hact, hl], .cons ⟨rfl, rfl, rfl⟩ hr.same, ?_, ?_,
        ?_, ?_, ?_, ?_, hr.sound⟩
      · exact List.forall_mem_cons.mpr ⟨by simp [ha, hact], hr.on⟩
      · exact List.forall_mem_cons.mpr ⟨fun h => absurd h (by simp [ha]), hr.registered⟩
      · rw [slots_cons_off ha]; exact hr.nodup
      · rw [slots_cons_off ha]; exact hr.fresh
      · rw [slots_cons_off ha]; exact hr.free
      · rw [slots_cons_off ha]; exact hr.tasks
    | some f =>
      rw [List.countP_cons_of_pos (by simp [hact])] at hcount
      obtain ⟨i, hi⟩ := exists_free (show 0 < freeCount s by omega)
      have hsome : a.action.isSome = true := by simp [hact]
      obtain ⟨slot, t, hreg, hone⟩ : ∃ slot t,
          registerTask a.periodUs a.action s = (BitVec.ofNat 16 slot.val, t) ∧
            RegisteredOne s a slot t := by
        rcases registerTask_action hsome s with h | h
        · obtain ⟨slot, task, -, -, -, -, -, -, hyes⟩ :=
            registerTask_succeeds (f := f) (hacc a (by simp) hsome) hi
          rw [hact, hyes] at h
          have hid := congrArg Prod.fst h
          exact absurd (congrArg (fun x => (BitVec.setWidth 8 x).setWidth 16) hid)
            (stored_valid slot)
        · exact h
      obtain ⟨l', s', hl, hr⟩ := registerLoop_spec (l := rest) (done ++ [stored a slot]) (s := t)
        ⟨hacc', by have := freeCount_claim hone.fresh hone.free; omega⟩ hoff'
      have hslot := stored_slot a slot
      have hni : slot ∉ slots l' := fun hm => by
        have := hr.fresh slot hm
        simp [hone.free] at this
      refine ⟨stored a slot :: l', s', ?_, .cons ⟨rfl, rfl, rfl⟩ hr.same, ?_, ?_, ?_, ?_, ?_, ?_,
        fun h => hr.sound (hone.sound h)⟩
      · rw [hact] at hreg
        simp only [registerLoop, hact, Option.isNone_some, Bool.false_eq_true, if_false, hreg,
          if_neg (stored_valid slot)]
        rw [show done ++ stored a slot :: l' = done ++ [stored a slot] ++ l' by simp, ← hl]
        simp [stored, hact]
      · exact List.forall_mem_cons.mpr ⟨by simp [stored, hact], hr.on⟩
      · refine List.forall_mem_cons.mpr ⟨fun _ => ?_, hr.registered⟩
        refine hone.registered.congr ?_ (hr.tasks _ (by rwa [hslot]))
        rw [hr.free, hone.registered.taken, Bool.false_and]
      · rw [slots_cons_on rfl, hslot]
        exact List.nodup_cons.mpr ⟨hni, hr.nodup⟩
      · rw [slots_cons_on rfl, hslot]
        refine List.forall_mem_cons.mpr ⟨hone.fresh, fun j hj => ?_⟩
        have := hr.fresh j hj
        rw [hone.free, Bool.and_eq_true] at this
        exact this.1
      · intro j
        rw [slots_cons_on rfl, hslot, hr.free, hone.free]
        by_cases hj : j = slot <;> simp [hj]
      · intro j hj
        rw [slots_cons_on rfl, hslot, List.mem_cons, not_or] at hj
        rw [hr.tasks j hj.2, hone.tasks j hj.1]

/-- Nothing else succeeds. -/
theorem registrable_of_registerLoop : ∀ {l done : List TimedAction} {s : State},
    (registerLoop done l s).2.2 = true → Registrable l s
  | [], _, _, _ => ⟨by simp, by simp⟩
  | a :: rest, done, s, h => by
    rw [registerLoop] at h
    split at h
    next hnone =>
      obtain ⟨hacc, hcount⟩ := registrable_of_registerLoop h
      have hno : ¬ a.action.isSome = true := by simpa using hnone
      exact ⟨List.forall_mem_cons.mpr ⟨fun ha => absurd ha hno, hacc⟩,
        by rwa [List.countP_cons_of_neg (by simpa using hnone)]⟩
    next hsome =>
      have hact : a.action.isSome = true := by simpa [Option.isSome_iff_ne_none] using hsome
      rcases registerTask_action hact s with hno | ⟨slot, t, hyes, hone⟩
      · have hid : (invalidId.setWidth 8).setWidth 16 = invalidId := by decide
        simp only [hno, hid, if_true, Bool.false_eq_true] at h
      · simp only [hyes, if_neg (stored_valid slot)] at h
        obtain ⟨hacc, hcount⟩ := registrable_of_registerLoop h
        have := freeCount_claim hone.fresh hone.free
        refine ⟨List.forall_mem_cons.mpr ⟨fun _ => hone.accepted, hacc⟩, ?_⟩
        rw [List.countP_cons_of_pos (by simp [hact])]
        omega

/-- **Registering succeeds** when it can, each action in a slot of its own. -/
theorem registerAll_spec {l : List TimedAction} {s : State} (h : Registrable l s)
    (hoff : ∀ a ∈ l, a.isOn = false) :
    ∃ l' s', registerAll l s = (l', s', true) ∧ RegisteredAll s l l' s' := by
  simpa [registerAll] using registerLoop_spec [] h hoff

end StLib.StateMachine.TimedActions
