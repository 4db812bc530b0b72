import StLib.Scheduler.Reentrancy
import StLib.Scheduler.Timeouts

/-! # What `unregister_task` removes

`unregister_task` takes the number of a slot and does not ask what the slot holds. It
removes a repeating task under the id `register_task` returned for it, and no timeout
with it, unless the slot holds a timeout: then it removes that (`unregister_iff`). -/
namespace StLib.Scheduler.Unregistering

open StLib.Base.Runs
open StLib.Scheduler.Model StLib.Scheduler.Steps StLib.Scheduler.Invariant
open StLib.Scheduler.Dispatching StLib.Scheduler.QueueInvariant StLib.Scheduler.Reentrancy
open StLib.Scheduler.Timeouts

/-! ## The ids `register_task` returned -/

def callIds : Call → State → List (BitVec 16)
  | .registerTask p f, s =>
    if (registerTask p f s).1 = invalidId then [] else [(registerTask p f s).1]
  | _, _ => []

def scriptIds : Script → State → List (BitVec 16)
  | [], _ => []
  | (cnt, c) :: rest, s => callIds c (s.atCount cnt) ++ scriptIds rest (c.run (s.atCount cnt))

/-- Those of an operation, with the calls of the callbacks an update runs. -/
def opIds (s : State) : Label → List (BitVec 16)
  | (cnt, .call c) => callIds c (s.atCount cnt)
  | (_, .timerInterrupt) => []
  | (cnt, .update scripts) =>
    ((update scripts (s.atCount cnt)).map fun r =>
      r.2.flatMap fun d => scriptIds d.script d.before).getD []

/-- A step, with the ids returned so far. -/
def RegisterStep (w : State × List (BitVec 16)) (l : Label) (w' : State × List (BitVec 16)) :
    Prop :=
  Step w.1 l w'.1 ∧ w'.2 = w.2 ++ opIds w.1 l

/-- The id is that of a repeating task the slot `i` holds, and was returned for it. -/
def LiveTask (ids : List (BitVec 16)) (s : State) (i : Slot) (id : BitVec 16) : Prop :=
  (∃ f, held s i = some ⟨f, true, id⟩) ∧ id ∈ ids

/-- The slot holds a timeout, pending or fired, that has not been run. -/
def HoldsTimeout (s : State) (i : Slot) : Prop :=
  s.isFree i = false ∧ (s.tasks i).repeating = false

/-- What there is in slot `i` is still there, queued and ready as before. -/
structure Kept (s t : State) (i : Slot) : Prop where
  taken : t.isFree i = s.isFree i
  task : t.tasks i = s.tasks i
  queued : i ∈ queue t ↔ i ∈ queue s
  ready : t.isReady i = s.isReady i

/-- A repeating task is held under the number of its slot, an id returned for it. -/
def Recorded (ids : List (BitVec 16)) (s : State) : Prop :=
  ∀ i f id, held s i = some ⟨f, true, id⟩ → id = BitVec.ofNat 16 i.val ∧ id ∈ ids

theorem Recorded.of_held {ids ids' : List (BitVec 16)} {s t : State} (h : Recorded ids s)
    (hids : ids ⊆ ids') (ht : ∀ i, held t i = none ∨ held t i = held s i) : Recorded ids' t := by
  intro i f id hi
  rcases ht i with hnone | hsame
  · rw [hnone] at hi
    cases hi
  · obtain ⟨hid, hmem⟩ := h i f id (hsame ▸ hi)
    exact ⟨hid, hids hmem⟩

theorem slot_ne_invalidId (slot : Slot) : BitVec.ofNat 16 slot.val ≠ invalidId := by
  revert slot
  decide

/-- One call records what it registers. -/
theorem recorded_call {ids : List (BitVec 16)} {s : State} (h : Recorded ids s) (c : Call) :
    Recorded (ids ++ callIds c s) (c.run s) := by
  cases c with
  | registerTask p f =>
    rcases registerTask_cases p f s with hnone | ⟨slot, task, -, -, -, hcb, -, -, -, hid, hrun⟩
    · refine h.of_held (List.subset_append_left ..) fun i => .inr ?_
      rw [Call.run, hnone]
    · intro i f' id hi
      have hids : callIds (.registerTask p f) s = [BitVec.ofNat 16 slot.val] := by
        simp only [callIds, hrun, hid, if_neg (slot_ne_invalidId slot)]
      rw [Call.run, hrun, held_armTask] at hi
      by_cases he : i = slot
      · subst he
        rw [Function.update_self] at hi
        obtain rfl : task.id = id := congrArg Entry.id (Option.some.inj hi)
        exact ⟨hid, by rw [hids, hid]; simp⟩
      · rw [Function.update_of_ne he] at hi
        obtain ⟨hold, hmem⟩ := h i f' id hi
        exact ⟨hold, List.mem_append_left _ hmem⟩
  | setTimeout us f =>
    rw [show callIds (.setTimeout us f) s = [] from rfl, List.append_nil]
    rcases held_setTimeout us f s with hnone | ⟨slot, -, -, hheld⟩
    · refine h.of_held (List.Subset.refl _) fun i => .inr ?_
      rw [Call.run, hnone]
    · intro i f' id hi
      rw [Call.run, hheld] at hi
      by_cases he : i = slot
      · rw [he, Function.update_self] at hi
        cases hi
      · rw [Function.update_of_ne he] at hi
        exact h i f' id hi
  | unregisterTask id =>
    rw [show callIds (.unregisterTask id) s = [] from rfl, List.append_nil]
    exact h.of_held (List.Subset.refl _) fun i => held_unregisterTask id s i
  | cancelTimeout id =>
    rw [show callIds (.cancelTimeout id) s = [] from rfl, List.append_nil]
    exact h.of_held (List.Subset.refl _) fun i => (held_cancelTimeout id s i).1

theorem recorded_script : ∀ {sc : Script} {ids : List (BitVec 16)} {s : State}, Recorded ids s →
    Recorded (ids ++ scriptIds sc s) (runScript sc s)
  | [], ids, s, h => by
    rw [scriptIds, List.append_nil]
    exact h
  | (cnt, c) :: rest, ids, s, h => by
    have hcall := recorded_call (s := s.atCount cnt) h c
    rw [scriptIds, ← List.append_assoc]
    exact recorded_script hcall

theorem recorded_dispatch {ids : List (BitVec 16)} {d : Dispatch} (h : Recorded ids d.before) :
    Recorded (ids ++ scriptIds d.script d.before) d.after := by
  refine (recorded_script h).of_held (List.Subset.refl _) fun i => ?_
  rw [Dispatch.after, held_finishDispatch]
  split
  · exact .inl rfl
  · exact .inr rfl

/-- Every step records what it registers. -/
theorem recorded_step {w w' : State × List (BitVec 16)} {l : Label} (h : Recorded w.2 w.1)
    (hs : RegisterStep w l w') : Recorded w'.2 w'.1 := by
  obtain ⟨s, ids⟩ := w
  obtain ⟨t, ids'⟩ := w'
  obtain ⟨cnt, op⟩ := l
  obtain ⟨hstep, rfl⟩ := hs
  cases op with
  | call c =>
    obtain rfl := Option.some.inj hstep
    exact recorded_call (s := s.atCount cnt) h c
  | timerInterrupt =>
    obtain ⟨r, hr, rfl⟩ := Option.map_eq_some_iff.mp hstep
    refine h.of_held (List.subset_append_left ..) fun i => .inr ?_
    exact congrFun (held_onTimerUpdate hr).1 i
  | update scripts =>
    obtain ⟨r, hr, rfl⟩ := Option.map_eq_some_iff.mp hstep
    have hids : opIds s (cnt, .update scripts) =
        r.2.flatMap fun d => scriptIds d.script d.before := by
      simp only [opIds, hr, Option.map_some, Option.getD_some]
    show Recorded (ids ++ opIds s (cnt, .update scripts)) r.1
    rw [hids]
    rw [update_eq] at hr
    refine (dispatchReady_rule (P := fun t ds =>
      Recorded (ids ++ ds.flatMap fun d => scriptIds d.script d.before) t)
      (G := fun _ => True) (fun ds d hP _ _ _ => ?_) ?_ hr (l := []) fun _ _ => trivial).1
    · have hd := recorded_dispatch hP
      rwa [List.append_assoc, show scriptIds d.script d.before =
        [d].flatMap fun d => scriptIds d.script d.before by simp, ← List.flatMap_append] at hd
    · rw [List.flatMap_nil, List.append_nil]
      exact h

theorem recorded_initial : Recorded [] initial := by
  have hfree : ∀ i, initial.isFree i = true := by decide
  intro i f id hi
  rw [held_of_free (hfree i)] at hi
  cases hi

/-- In a run the queue is consistent and the ids are recorded. -/
theorem recorded_run {ls : List Label} {w : State × List (BitVec 16)}
    (r : Run RegisterStep (fun w l => Safe w.1 l) (initial, []) ls w) :
    (∃ q, Consistent w.1 q) ∧ Recorded w.2 w.1 := by
  have hinitial : (∃ q, Consistent initial q) ∧ Recorded [] initial := ⟨⟨[], .initial⟩, recorded_initial⟩
  refine r.invariant (P := fun w => (∃ q, Consistent w.1 q) ∧ Recorded w.2 w.1) hinitial ?_
  intro v l u hv hok hs
  obtain ⟨⟨q, hq⟩, hrec⟩ := hv
  exact ⟨safe_step_consistent hq hok hs.1, recorded_step hrec hs⟩

/-! ## Removing a task -/

/-- Dropping the task of another slot keeps what slot `i` holds. -/
theorem kept_drop {s : State} {q : List Slot} {slot i : Slot} (h : Consistent s q)
    (hf : s.isFree slot = false) (h0 : slot = 0 → firedTimeout s 0 = false) (hi : i ≠ slot) :
    Kept s (dropTask s slot) i := by
  refine ⟨by simp [hi], by simp, ?_, by simp [hi]⟩
  rw [queue_eq (h.drop hf h0).holds, queue_eq h.holds, h.nodup.mem_erase_iff]
  simp [hi]

/-- **`unregister_task` acts on repeating tasks** exactly when the slot its id names holds
no timeout: then what it removes is a task registered under that id, and every timeout
stays as it is. -/
theorem unregister_iff {ls : List Label} {w : State × List (BitVec 16)}
    (r : Run RegisterStep (fun w l => Safe w.1 l) (initial, []) ls w) (cnt : BitVec 32)
    (id : BitVec 16) :
    (((unregisterTask id (w.1.atCount cnt)).1 = true →
        ∃ h : id.toNat < kMaxTasks, LiveTask w.2 (w.1.atCount cnt) ⟨id.toNat, h⟩ id) ∧
      ∀ i, HoldsTimeout (w.1.atCount cnt) i →
        Kept (w.1.atCount cnt) (unregisterTask id (w.1.atCount cnt)).2 i) ↔
    ∀ h : id.toNat < kMaxTasks, ¬ HoldsTimeout (w.1.atCount cnt) ⟨id.toNat, h⟩ := by
  obtain ⟨⟨q, hq⟩, hrec⟩ := recorded_run r
  have hq' := hq.atCount cnt
  have hrec' : Recorded w.2 (w.1.atCount cnt) := hrec
  generalize w.1.atCount cnt = s at hq' hrec' ⊢
  constructor
  · rintro ⟨hlive, -⟩ hlt ⟨htaken, hrep⟩
    -- the call would have removed the timeout
    have hdrop : (unregisterTask id s).1 = true := by
      rcases unregisterTask_cases id s with hno | ⟨hlt', hf, hyes⟩
      · rw [unregisterTask, dif_pos hlt, shift_eq_bit hlt, if_neg ((and_bit_ne_zero _ _).not.mpr
          (Bool.eq_false_iff.mp htaken))] at hno
        exact absurd (congrArg Prod.fst hno) nofun
      · rw [hyes]
    obtain ⟨hlt', ⟨f, hheld⟩, -⟩ := hlive hdrop
    have htrue : (s.tasks ⟨id.toNat, hlt'⟩).repeating = true :=
      (congrArg Entry.repeating (taken_of_held hheld).2).symm
    exact Bool.false_ne_true (hrep.symm.trans htrue)
  · intro hno
    rcases unregisterTask_cases id s with hsame | ⟨hlt, hf, hdrop⟩
    · rw [hsame]
      exact ⟨nofun, fun i _ => ⟨rfl, rfl, Iff.rfl, rfl⟩⟩
    · have hrep : (s.tasks ⟨id.toNat, hlt⟩).repeating = true :=
        Bool.of_not_eq_false fun hr => hno hlt ⟨hf, hr⟩
      rw [hdrop]
      refine ⟨fun _ => ⟨hlt, ?_⟩, fun i hi => ?_⟩
      · have hheld := held_of_taken hf
        rw [Entry.ofTask, hrep] at hheld
        obtain ⟨hid, hmem⟩ := hrec' _ _ _ hheld
        have heq : (s.tasks ⟨id.toNat, hlt⟩).id = id := by
          rw [hid]
          exact BitVec.eq_of_toNat_eq (by
            rw [BitVec.toNat_ofNat, Nat.mod_eq_of_lt id.isLt])
        rw [heq] at hheld hmem
        exact ⟨⟨_, hheld⟩, hmem⟩
      · refine kept_drop hq' hf (fun h0 => ?_) fun he => ?_
        · rw [h0] at hrep
          simp [firedTimeout, hrep]
        · rw [he] at hi
          exact Bool.false_ne_true (hi.2.symm.trans hrep)

/-- A registered task is unregistered under its id. -/
theorem unregister_registered :
    LiveTask [0#16] (registered.atCount 3#32) 0 0#16 := by
  have hids : opIds initial (0#32, .call (.registerTask 10#32 (some 0))) = [0#16] := by
    decide +kernel
  have hstep : RegisterStep (initial, []) (0#32, .call (.registerTask 10#32 (some 0)))
      (registered, [0#16]) := ⟨step_registered, by rw [hids]; rfl⟩
  have hsafe : Safe initial (0#32, .call (.registerTask 10#32 (some 0))) :=
    removeSafe_registerTask _ _ _
  have hrun : Run RegisterStep (fun w l => Safe w.1 l) (initial, []) _ (registered, [0#16]) :=
    Run.single hsafe hstep
  have hrep : ((registered.atCount 3#32).tasks 0).repeating = true := by decide +kernel
  obtain ⟨hlive, -⟩ := (unregister_iff hrun 3#32 0#16).mpr fun _ h =>
    Bool.false_ne_true (h.2.symm.trans hrep)
  obtain ⟨_, h⟩ := hlive (by decide +kernel)
  exact h

/-- **A timeout is unregistered** under the number of its slot. -/
theorem timeout_unregistered :
    ¬ ∀ ls s, Run Step (fun _ _ => True) initial ls s → ∀ id, (unregisterTask id s).1 = true →
      ∃ h : id.toNat < kMaxTasks, (s.tasks ⟨id.toNat, h⟩).repeating = true := by
  intro h
  have hstep : Step initial (0#32, .call (.setTimeout 5#32 (some 0)))
      (setTimeout 5#32 (some 0) (initial.atCount 0#32)).2 := rfl
  have hfalse : ∀ hlt : (0#16).toNat < kMaxTasks, ((setTimeout 5#32 (some 0)
      (initial.atCount 0#32)).2.tasks ⟨(0#16).toNat, hlt⟩).repeating = false := by
    decide +kernel
  obtain ⟨hlt, hrep⟩ := h _ _ (Run.single trivial hstep) 0#16 (by decide +kernel)
  rw [hfalse hlt] at hrep
  cases hrep

end StLib.Scheduler.Unregistering
