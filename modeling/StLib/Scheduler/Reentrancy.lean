import StLib.Scheduler.QueueInvariant

/-! # Callbacks that call the scheduler

What `update` guarantees when the callbacks it runs register, cancel and
unregister tasks, their own included (`update_reentrant`). The exception is a
callback that removes the task being run and lets `set_timeout` take its slot:
when it returns, `update` finds a one-shot in the slot and releases it, though it
is queued and has not fired (`unsafe_release_breaks`). -/
namespace StLib.Scheduler.Reentrancy

open StLib.Base.Runs StLib.Base.NibbleWord
open StLib.Scheduler.Model StLib.Scheduler.Queue StLib.Scheduler.Steps StLib.Scheduler.Invariant
open StLib.Scheduler.Dispatching StLib.Scheduler.QueueInvariant

/-! ## What callbacks do to the slots -/

inductive Event
  | added (slot : Slot) (task : Task)
  | removed (slot : Slot)

def callEvents (c : Call) (s : State) : List Event :=
  ((c.adds s).toList.map fun i => .added i ((c.run s).tasks i)) ++ (c.removes s).toList.map .removed

def scriptEvents : Script → State → List Event
  | [], _ => []
  | (cnt, c) :: rest, s =>
    callEvents c (s.atCount cnt) ++ scriptEvents rest (c.run (s.atCount cnt))

/-- The events of the dispatches of one update, in order. -/
def events (ds : List Dispatch) : List Event := ds.flatMap fun d => scriptEvents d.script d.before

/-- The task an event leaves in slot `i`, when the callbacks put one there. -/
def standStep (i : Slot) (r : Option Task) : Event → Option Task
  | .added j t => if j = i then some t else r
  | .removed j => if j = i then none else r

/-- The task callbacks registered in slot `i` and did not remove since. -/
def standing (es : List Event) (i : Slot) : Option Task := es.foldl (standStep i) none

theorem standing_append (es fs : List Event) (i : Slot) :
    standing (es ++ fs) i = fs.foldl (standStep i) (standing es i) := by
  rw [standing, List.foldl_append]
  rfl

/-! ## The condition on callbacks -/

/-- Every call of a callback is safe in the state it finds. -/
def ScriptSafe : Script → State → Prop
  | [], _ => True
  | (cnt, c) :: rest, s => RemoveSafe (s.atCount cnt) c ∧ ScriptSafe rest (c.run (s.atCount cnt))

/-- The slot a callback returns for holds no one-shot, or the one that fired, or
has been freed: it does not hold a timeout the callback set. -/
def ReleaseSafe (s : State) (slot : Slot) : Prop :=
  (s.tasks slot).repeating = false → s.isFree slot = true ∨ s.isReady slot = true

def DispatchSafe (d : Dispatch) : Prop := ScriptSafe d.script d.before ∧ ReleaseSafe d.returned d.slot

/-- The callbacks an update runs are safe, each in the state it is called in. -/
def UpdateSafe (scripts : Nat → Script) (s : State) : Prop :=
  ∀ t ds, update scripts s = some (t, ds) → ∀ d ∈ ds, DispatchSafe d

instance (s : State) (c : Call) : Decidable (RemoveSafe s c) := inferInstanceAs (Decidable (_ → _))

instance decidableScriptSafe : ∀ (sc : Script) (s : State), Decidable (ScriptSafe sc s)
  | [], _ => isTrue trivial
  | (cnt, c) :: rest, s =>
    have := decidableScriptSafe rest (c.run (s.atCount cnt))
    inferInstanceAs (Decidable (RemoveSafe (s.atCount cnt) c ∧ _))

instance (s : State) (slot : Slot) : Decidable (ReleaseSafe s slot) :=
  inferInstanceAs (Decidable (_ → _))

instance (d : Dispatch) : Decidable (DispatchSafe d) := inferInstanceAs (Decidable (_ ∧ _))

/-- The condition of an update, evaluated. -/
theorem updateSafe_of_all {scripts : Nat → Script} {s : State}
    (h : ((update scripts s).map fun r => r.2.all fun d => decide (DispatchSafe d)) = some true) :
    UpdateSafe scripts s := by
  intro t ds hr d hd
  rw [hr, Option.map_some, Option.some.injEq, List.all_eq_true] at h
  exact of_decide_eq_true (h d hd)

/-- The condition on a step of a run. -/
def Safe (s : State) : Label → Prop
  | (cnt, .call c) => RemoveSafe (s.atCount cnt) c
  | (_, .timerInterrupt) => True
  | (cnt, .update scripts) => UpdateSafe scripts (s.atCount cnt)

/-! ## One call -/

/-- The tasks callbacks registered are queued as they were registered. -/
def Queued (s : State) (q : List Slot) (es : List Event) : Prop :=
  ∀ i task, standing es i = some task → i ∈ q ∧ s.tasks i = task

/-- What is still ready in `t` was so in `s`, with the same task, and is none of
the slots removed in between. -/
def Pending (s t : State) (removed : List Slot) : Prop :=
  ∀ i, t.isReady i = true → s.isReady i = true ∧ t.tasks i = s.tasks i ∧ i ∉ removed

theorem Pending.refl (s : State) : Pending s s [] := fun _ hi => ⟨hi, rfl, List.not_mem_nil⟩

theorem Pending.trans {s t u : State} {l m : List Slot} (h : Pending s t l) (h' : Pending t u m) :
    Pending s u (l ++ m) := by
  intro i hi
  obtain ⟨ht, htask, hm⟩ := h' i hi
  obtain ⟨hs, hstask, hl⟩ := h i ht
  exact ⟨hs, htask.trans hstask, by simp [hl, hm]⟩

/-- A call keeps the registered tasks queued and the pending ones pending. -/
theorem call_keeps {s : State} {q : List Slot} {es : List Event} {c : Call} (h : Consistent s q)
    (hes : Queued s q es) (safe : RemoveSafe s c) :
    ∃ q', Consistent (c.run s) q' ∧ Queued (c.run s) q' (es ++ callEvents c s) ∧
      Pending s (c.run s) (c.removes s).toList := by
  rcases Call.run_cases c s with
    ⟨hrun, hrem, hadd⟩ | ⟨slot, task, idx, hf, hp, -, hrem, hadd, hrun⟩ | ⟨slot, hf, hrem, hadd, hrun⟩
  · refine ⟨q, hrun.symm ▸ h, ?_, ?_⟩
    · rw [callEvents, hadd, hrem, hrun]
      simpa using hes
    · rw [hrun, hrem]
      exact Pending.refl s
  · have hh : Holds (armed s slot task idx) q := h.holds.congr rfl rfl
    have htasks : ∀ i, i ≠ slot → (c.run s).tasks i = s.tasks i := fun i hi => by
      rw [hrun, armTask_claimSlot, scheduleNextInterval_tasks]
      exact armed_tasks_of_ne hi
    refine ⟨_, hrun.symm ▸ h.arm hf hp idx, fun i t hi => ?_, fun i hi => ?_⟩
    · rw [callEvents, hadd, hrem, standing_append] at hi
      simp only [Option.toList_some, List.map_cons, List.map_nil, Option.toList_none,
        List.append_nil, List.foldl_cons, List.foldl_nil, standStep] at hi
      rw [List.mem_insertIdx (insertPos_le hh slot)]
      split at hi
      next he =>
        subst he
        exact ⟨.inl rfl, by simpa using hi⟩
      next hne =>
        obtain ⟨hm, ht⟩ := hes i t hi
        exact ⟨.inr hm, by rw [htasks i (Ne.symm hne), ht]⟩
    · have hr : s.isReady i = true := call_readyLe c s _ hi
      have hne : i ≠ slot := fun he => by
        rw [he, h.notReady_of_free hf] at hr
        cases hr
      exact ⟨hr, htasks i hne, by simp [hrem]⟩
  · refine ⟨_, hrun.symm ▸ h.drop hf fun h0 => safe (h0 ▸ hrem), fun i t hi => ?_, fun i hi => ?_⟩
    · rw [callEvents, hadd, hrem, standing_append] at hi
      simp only [Option.toList_some, List.map_cons, List.map_nil, Option.toList_none,
        List.nil_append, List.foldl_cons, List.foldl_nil, standStep] at hi
      split at hi
      next => cases hi
      next hne =>
        obtain ⟨hm, ht⟩ := hes i t hi
        exact ⟨(h.nodup.mem_erase_iff).mpr ⟨Ne.symm hne, hm⟩, by rw [hrun, dropTask_tasks, ht]⟩
    · rw [hrun, dropTask_isReady, Bool.and_eq_true, decide_eq_true_eq] at hi
      exact ⟨hi.1, by rw [hrun, dropTask_tasks], by simpa [hrem] using hi.2⟩

/-- A callback keeps the registered tasks queued and the pending ones pending. -/
theorem script_keeps : ∀ {sc : Script} {s : State} {q : List Slot} {es : List Event},
    Consistent s q → Queued s q es → ScriptSafe sc s →
    ∃ q', Consistent (runScript sc s) q' ∧ Queued (runScript sc s) q' (es ++ scriptEvents sc s) ∧
      Pending s (runScript sc s) (scriptRemoves sc s)
  | [], s, q, es, h, hes, _ => by
    refine ⟨q, h, ?_, Pending.refl s⟩
    rw [scriptEvents, List.append_nil]
    exact hes
  | (cnt, c) :: rest, s, q, es, h, hes, safe => by
    obtain ⟨q', hq', hes', hpend⟩ := call_keeps (h.atCount cnt) hes safe.1
    obtain ⟨q'', hq'', hes'', hpend'⟩ := script_keeps hq' hes' safe.2
    refine ⟨q'', hq'', ?_, hpend.trans hpend'⟩
    rwa [scriptEvents, ← List.append_assoc]

/-! ## One update -/

/-- Where an update that started from `s` stands after the dispatches `ds`. -/
structure Progress (s t : State) (ds : List Dispatch) : Prop where
  queued : ∃ q, Consistent t q ∧ Queued t q (events ds)
  pending : ∀ d ∈ ds, Pending s t (scriptRemoves d.script d.before)
  ready : Pending s t []
  turns : ds.Pairwise fun d d' => d'.slot ∉ scriptRemoves d.script d.before
  ran : ∀ d ∈ ds, s.isReady d.slot = true ∧ d.before.tasks d.slot = s.tasks d.slot

/-- One safe dispatch. -/
theorem Progress.dispatch {s : State} {ds : List Dispatch} {d : Dispatch}
    (h : Progress s d.before ds) (hr : d.before.isReady d.slot = true) (safe : DispatchSafe d) :
    Progress s d.after (ds ++ [d]) := by
  obtain ⟨q, hq, hes⟩ := h.queued
  obtain ⟨q', hq', hes', hpend⟩ := script_keeps hq hes safe.1
  have hlast : Pending d.before d.after (scriptRemoves d.script d.before) := by
    intro i hi
    rw [Dispatch.after, finishDispatch_isReady, Bool.and_eq_true] at hi
    rw [Dispatch.after, finishDispatch_tasks]
    exact hpend i hi.1
  refine ⟨⟨q', consistent_finish hq' safe.2, fun i t hi => ?_⟩, fun d' hd' i hi => ?_,
    fun i hi => ?_, ?_, fun d' hd' => ?_⟩
  · rw [Dispatch.after, finishDispatch_tasks]
    exact hes' i t (by simpa [events] using hi)
  · obtain ⟨hb, ht, hm⟩ := hlast i hi
    rcases List.mem_append.mp hd' with hd' | hd'
    · obtain ⟨hs, hst, hm'⟩ := h.pending d' hd' i hb
      exact ⟨hs, ht.trans hst, hm'⟩
    · rw [List.mem_singleton.mp hd']
      obtain ⟨hs, hst, -⟩ := h.ready i hb
      exact ⟨hs, ht.trans hst, hm⟩
  · obtain ⟨hb, ht, -⟩ := hlast i hi
    obtain ⟨hs, hst, -⟩ := h.ready i hb
    exact ⟨hs, ht.trans hst, List.not_mem_nil⟩
  · rw [List.pairwise_append]
    refine ⟨h.turns, List.pairwise_singleton .., fun d' hd' d'' hd'' => ?_⟩
    rw [List.mem_singleton.mp hd'']
    exact (h.pending d' hd' _ hr).2.2
  · rcases List.mem_append.mp hd' with hd' | hd'
    · exact h.ran d' hd'
    · rw [List.mem_singleton.mp hd']
      obtain ⟨hs, hst, -⟩ := h.ready _ hr
      exact ⟨hs, hst⟩

/-- A safe update ends with its progress complete. -/
theorem update_progress {s : State} {q : List Slot} (h : Consistent s q) {scripts : Nat → Script}
    (safe : UpdateSafe scripts s) :
    ∃ t ds, update scripts s = some (t, ds) ∧ Progress s t ds ∧ t.readyBitmap = 0#32 := by
  obtain ⟨⟨t, ds⟩, hr⟩ := update_total h.readySlots scripts
  have hsafe := safe t ds hr
  have hr' := hr
  rw [update_eq] at hr'
  have h' : Consistent { s with failingId := invalidId } q := h.congr rfl rfl rfl rfl rfl
  have start : Progress s { s with failingId := invalidId } [] :=
    ⟨⟨q, h', fun i t hi => nomatch hi⟩, by simp, Pending.refl s, List.Pairwise.nil, by simp⟩
  have := dispatchReady_rule (P := Progress s) (G := DispatchSafe)
    (fun l d hP hd _ hG => hP.dispatch hd hG) start hr' hsafe
  exact ⟨t, ds, hr, this.1, this.2⟩

/-! ## Runs -/

/-- Every safe step ends in agreement again. -/
theorem safe_step_consistent {s t : State} {q : List Slot} (h : Consistent s q) {l : Label}
    (hl : Safe s l) (hs : Step s l t) : ∃ q', Consistent t q' := by
  obtain ⟨cnt, op⟩ := l
  have h' := h.atCount cnt
  cases op with
  | call c =>
    obtain ⟨q', hq', -⟩ := h'.call hl
    exact ⟨q', Option.some.inj hs ▸ hq'⟩
  | timerInterrupt =>
    obtain ⟨r, hr, hq'⟩ := h'.onTimerUpdate
    rw [Step, Op.run, hr] at hs
    exact Option.some.inj hs ▸ hq'
  | update scripts =>
    obtain ⟨t', ds, hr, hp, -⟩ := update_progress h' hl
    rw [Step, Op.run, hr] at hs
    obtain ⟨q', hq', -⟩ := hp.queued
    exact ⟨q', Option.some.inj hs ▸ hq'⟩

theorem safe_run_consistent {ls : List Label} {s : State} (r : Run Step Safe initial ls s) :
    ∃ q, Consistent s q :=
  r.invariant (P := fun s => ∃ q, Consistent s q) ⟨[], .initial⟩
    fun _ _ _ ⟨_, hq⟩ hok hs => safe_step_consistent hq hok hs

/-! ## Main results -/

/-- **Callbacks may call the scheduler**: after a safe update no slot is both
queued and free, every task a callback registered and none removed since is
queued as registered, no callback ran for a slot removed before its turn, and
each ran for the task that was ready when the update began. -/
theorem update_reentrant {ls : List Label} {s : State} (r : Run Step Safe initial ls s)
    (cnt : BitVec 32) (scripts : Nat → Script) (safe : UpdateSafe scripts (s.atCount cnt)) :
    ∃ t ds, update scripts (s.atCount cnt) = some (t, ds) ∧
      (∀ i ∈ queue t, t.isFree i = false) ∧
      (∀ i task, standing (events ds) i = some task → i ∈ queue t ∧ t.tasks i = task) ∧
      (ds.Pairwise fun d d' => d'.slot ∉ scriptRemoves d.script d.before) ∧
      (∀ d ∈ ds, s.isReady d.slot = true ∧ d.before.tasks d.slot = s.tasks d.slot) ∧
      t.readyBitmap = 0#32 := by
  obtain ⟨q, hq⟩ := safe_run_consistent r
  obtain ⟨t, ds, hr, hp, hready⟩ := update_progress (hq.atCount cnt) safe
  obtain ⟨q', hq', hes⟩ := hp.queued
  have hqueue := queue_eq hq'.holds
  refine ⟨t, ds, hr, ?_, ?_, hp.turns, hp.ran, hready⟩
  · exact (wellFormed_of_consistent hq').notFree
  · rw [hqueue]
    exact hes

/-- Slot 0 holds a task that repeats every 10 µs. -/
def registered : State := { initial with
  tasks := Function.update (fun _ => {}) 0 ⟨10#32, some 0, 10#32, 0#16, true⟩
  activeTaskCount := 1#32
  freeBitmap := 0xFFFFFFFE#32
  currentIntervalUs := 10#32
  timer := ⟨0#32, 9#32, true, false⟩ }

/-- It has fired once and waits for `update`. -/
def due10 : State := { registered with
  tasks := Function.update (fun _ => {}) 0 ⟨20#32, some 0, 10#32, 0#16, true⟩
  globalTickUs := 10#64
  readyBitmap := 1#32 }

theorem step_registered :
    Step initial (0#32, .call (.registerTask 10#32 (some 0))) registered :=
  step_of_agrees (by decide +kernel)

theorem step_due10 : Step registered (0#32, .timerInterrupt) due10 :=
  step_of_agrees (by decide +kernel)

/-- A callback that sets a timeout: it is queued when the update is over. -/
theorem update_reentrant_sets_timeout :
    ∃ t ds, update (fun _ => [(0#32, .setTimeout 5#32 (some 1))]) (due10.atCount 0#32) =
      some (t, ds) ∧ (∀ i ∈ queue t, t.isFree i = false) := by
  obtain ⟨t, ds, hr, hfree, -⟩ := update_reentrant
    (.cons (show Safe initial (0#32, .call (.registerTask 10#32 (some 0))) from
      removeSafe_registerTask _ _ _) step_registered
      (.cons (show Safe registered (0#32, .timerInterrupt) from trivial) step_due10 (.nil _))) 0#32
    (fun _ => [(0#32, .setTimeout 5#32 (some 1))]) (updateSafe_of_all (by decide +kernel))
  exact ⟨t, ds, hr, hfree⟩

/-- **A callback that replaces its own task by a timeout loses it**: the slot
comes out of the update queued and free. -/
theorem timeout_in_own_slot :
    ¬ ∀ ls s, Run Step (fun _ _ => True) initial ls s →
      ∀ scripts t ds, update scripts s = some (t, ds) → ∀ i ∈ queue t, t.isFree i = false := by
  intro h
  have hrun : (update (fun _ => [(0#32, .unregisterTask 0#16), (0#32, .setTimeout 5#32 (some 1))])
      due10).map (fun r => (queue r.1, r.1.isFree 0)) = some ([0], true) := by decide +kernel
  obtain ⟨⟨t, ds⟩, hr, hq⟩ := Option.map_eq_some_iff.mp hrun
  obtain ⟨hqueue, hfree⟩ := Prod.mk.inj hq
  have := h _ _ (.cons trivial step_registered (.cons trivial step_due10 (.nil _))) _ t ds hr 0
    (by rw [hqueue]; simp)
  rw [hfree] at this
  cases this

/-- **A release outside the guard breaks the queue**: the slot stays queued and
is marked free. -/
theorem unsafe_release_breaks {s : State} {q : List Slot} {slot : Slot} (h : Consistent s q)
    (hs : ¬ ReleaseSafe s slot) :
    slot ∈ queue (finishDispatch s slot) ∧ (finishDispatch s slot).isFree slot = true := by
  simp only [ReleaseSafe, Classical.not_imp, not_or, Bool.not_eq_true] at hs
  obtain ⟨hrep, hfree, hready⟩ := hs
  have hm : slot ∈ q := (h.queued slot).mpr ⟨hfree, by simp [firedTimeout, hready]⟩
  have hh : Holds (finishDispatch s slot) q := by
    unfold finishDispatch; dsimp only
    split <;> exact h.holds.congr rfl rfl
  refine ⟨queue_eq hh ▸ hm, ?_⟩
  rw [finishDispatch_isFree, hrep]
  simp

end StLib.Scheduler.Reentrancy
