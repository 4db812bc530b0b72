import StLib.Scheduler.QueueInvariant
import StLib.StateMachine.ActivePath

/-! # The activity invariant over whole runs

Any sequence of `start`, `check_transitions` and `force_change_state` on the top
machine, with time passing in between and with callbacks that leave the machines
alone, keeps the states entered and the tasks of the scheduler on the active path
(`activity`), as long as each machine a change leaves or enters has no active
machine below it. A state change exits and enters the bound machine's current
state and stops there, where `start` goes on to the machines below; so a machine
active two levels below the change is left running, or is not entered
(`nested_two_levels`). -/
namespace StLib.StateMachine.ActivityInvariant

open StLib.Base.Runs
open StLib.Scheduler.Model StLib.Scheduler.Steps StLib.Scheduler.Invariant
open StLib.Scheduler.Dispatching StLib.Scheduler.QueueInvariant
open StLib.StateMachine.TimedActions StLib.StateMachine.Model StLib.StateMachine.Activity
open StLib.StateMachine.ActivePath

variable {υ : Type}

/-! ## Time between two operations -/

/-- Tasks fire and are dispatched; they stay registered. -/
structure Elapsed (s s' : State) : Prop where
  sound : Sound s → Sound s'
  free : ∀ i, s'.isFree i = s.isFree i
  tasks : ∀ i, ∃ next, s'.tasks i = { s.tasks i with nextFireUs := next }

theorem Elapsed.refl (s : State) : Elapsed s s := ⟨id, fun _ => rfl, fun _ => ⟨_, rfl⟩⟩

theorem Elapsed.trans {s t u : State} (h : Elapsed s t) (h' : Elapsed t u) : Elapsed s u := by
  refine ⟨h'.sound ∘ h.sound, fun i => (h'.free i).trans (h.free i), fun i => ?_⟩
  obtain ⟨n, hn⟩ := h.tasks i
  obtain ⟨n', hn'⟩ := h'.tasks i
  exact ⟨n', by rw [hn', hn]⟩

theorem fireHead_elapsed {s : State} {a : Slot} {q : List Slot} (h : Consistent s (a :: q)) :
    Elapsed s (fireHead s) := by
  refine ⟨fun _ => ⟨_, h.fireHead⟩, fun i => ?_, fun i => ?_⟩ <;> rw [fireHead_eq h.holds.front]
  · split <;> rfl
  · have hfired : ∃ next, (fired s a).tasks i = { s.tasks i with nextFireUs := next } := by
      by_cases hi : i = a
      · subst hi
        rw [fired_tasks_self, refired]
        split <;> exact ⟨_, rfl⟩
      · exact ⟨_, fired_tasks_of_ne hi⟩
    split <;> exact hfired

/-- The timer interrupt. -/
theorem onTimerUpdate_elapsed {s : State} (hs : Sound s) :
    ∃ r, onTimerUpdate s = some r ∧ Elapsed s r.1 := by
  obtain ⟨q, hq⟩ := hs
  obtain ⟨r, hr, hsound⟩ := hq.onTimerUpdate
  have hrun := hr
  rw [onTimerUpdate] at hr
  obtain ⟨r', hr', rfl⟩ := Option.map_eq_some_iff.mp hr
  let s' := { s with globalTickUs := s.globalTickUs + s.currentIntervalUs.setWidth 64 }
  have hq' : Consistent s' q := hq.congr rfl rfl rfl rfl rfl
  have hfin : Elapsed s' r'.1 ∧ ∃ q, Consistent r'.1 q := by
    refine (popDue_rule (P := fun t _ => Elapsed s' t ∧ ∃ q, Consistent t q) ?_
      ⟨.refl s', q, hq'⟩ hr' (l := [])).1
    rintro t - ⟨ht, q', hq'⟩ h0 -
    cases q' with
    | nil => exact absurd (hq'.holds.count_eq_zero.mpr rfl) h0
    | cons a q' => exact ⟨ht.trans (fireHead_elapsed hq'), _, hq'.fireHead⟩
  refine ⟨_, hrun, fun _ => hsound, fun i => ?_, fun i => ?_⟩
  · rw [State.isFree, scheduleNextInterval_free]
    exact hfin.1.free i
  · rw [scheduleNextInterval_tasks]
    exact hfin.1.tasks i

/-- An update whose callbacks leave the scheduler alone, when no timeout has fired. -/
theorem update_elapsed {s : State} (hs : Sound s) {scripts : Nat → Script}
    (quiet : ∀ n, scripts n = []) (repeating : ∀ i, s.isReady i = true → (s.tasks i).repeating) :
    ∃ r, update scripts s = some r ∧ Elapsed s r.1 := by
  obtain ⟨q, hq⟩ := hs
  obtain ⟨r, hr, hq', htasks, -⟩ := quietUpdate_keeps hq quiet
  refine ⟨r, hr, fun _ => ⟨q, hq'⟩, ?_, fun i => ⟨_, congrFun htasks i⟩⟩
  rw [update_eq] at hr
  refine (dispatchReady_rule (P := fun t _ => (∀ i, t.isFree i = s.isFree i) ∧
    ∀ i, t.isReady i = true → (t.tasks i).repeating) (G := fun _ => True) ?_
    (s := { s with failingId := invalidId }) ⟨fun _ => rfl, repeating⟩ hr (l := [])
    fun _ _ => trivial).1.1
  rintro l d ⟨hfree, hrep⟩ hready ⟨n, hn⟩ -
  rw [Dispatch.after, Dispatch.returned, hn, quiet n]
  show (∀ i, (finishDispatch d.before d.slot).isFree i = s.isFree i) ∧ _
  refine ⟨fun i => ?_, fun i hi => ?_⟩
  · rw [finishDispatch_isFree, hrep d.slot hready]
    simpa using hfree i
  · rw [finishDispatch_tasks]
    rw [runScript, finishDispatch_isReady] at hi
    exact hrep i (Bool.and_eq_true_iff.mp hi).1

/-! ## Runs -/

/-- Between two operations time passes and the program around does as it likes;
the machines stay as they are. -/
def Between (w v : World υ) : Prop :=
  v = { w with sched := v.sched, user := v.user } ∧ Elapsed w.sched v.sched

/-- An operation with the world it finds. -/
abbrev Label (υ : Type) := World υ × MachineOp

def Step (h : Hooks υ) (m : Machine) (w : World υ) (l : Label υ) (w' : World υ) : Prop :=
  Between w l.1 ∧ w' = l.2.run h m l.1

/-- The operation is in order: `start` comes first and once, and the state changes
are as `ChangeOk` says. -/
def OpOk (h : Hooks υ) (F : Finset Slot) (m : Machine) (l : Label υ) : Prop :=
  match l.2 with
  | .start => l.1.calledStart [] = false ∧ Fits F l.1 (m.activePath [] l.1)
  | .checkTransitions => CheckOk h F m [] [] l.1
  | .forceChangeState state => l.1.calledStart [] = true ∧ ChangeOk F m [] [] state l.1

/-- The states that should be active: none before `start`. -/
def startedPath (m : Machine) (w : World υ) : List (Addr × Nat) :=
  if w.calledStart [] = true then m.activePath [] w else []

variable {F : Finset Slot} {P : List (Addr × Nat)} {w v : World υ} {h : Hooks υ} {m : Machine}

theorem Elapsed.registered {s s' : State} (h : Elapsed s s') {a : TimedAction}
    (ha : Registered s a) : Registered s' a := by
  obtain ⟨next, hn⟩ := h.tasks a.slot
  refine ⟨ha.action, ha.id, (h.free _).trans ha.taken, ?_, ?_, ?_⟩ <;> rw [hn]
  · exact ha.repeating
  · exact ha.callback
  · exact ha.period

/-- Time does not change what is registered. -/
theorem Elapsed.held (hel : Elapsed w.sched v.sched) (hc : v.cyclicActions = w.cyclicActions)
    (h : Held F P w) : Held F P v := by
  have hheld : heldSlots v P = heldSlots w P := heldSlots_congr fun x _ => by rw [hc]
  refine ⟨h.nodup, by rw [hc]; exact h.off, ?_, hheld ▸ h.distinct, by rw [hheld]; exact h.foreign,
    fun i => ?_, hel.sound h.sound⟩
  · rw [hc]
    exact fun x hx a ha hon => hel.registered (h.registered x hx a ha hon)
  · rw [hel.free i, hheld]
    exact h.taken i

/-- Time does not change which states are entered. -/
theorem between_entered (hb : Between w v) (he : Entered F P w) : Entered F P v := by
  obtain ⟨hv, hel⟩ := hb
  refine ⟨hel.held (by rw [hv]) he.toHeld, ?_, ?_⟩
  · rw [hv]
    exact he.opened
  · rw [hv]
    exact he.on

theorem between_path (hb : Between w v) : startedPath m v = startedPath m w := by
  obtain ⟨hv, -⟩ := hb
  have hpath : m.activePath [] v = m.activePath [] w :=
    activePath_congr m [] fun ρ _ => by rw [hv]
  rw [startedPath, startedPath, hpath, hv]

theorem above_nil (π : Addr) : Above [] π := by simp [Above]

/-- **An operation in order** ends with the active path entered. -/
theorem op_keeps (hi : Inert h) {op : MachineOp} (he : Entered F (startedPath m w) w)
    (hok : OpOk h F m (w, op)) :
    Entered F (startedPath m (op.run h m w)) (op.run h m w) := by
  cases op with
  | start =>
    obtain ⟨hnew, fits⟩ := hok
    change w.calledStart [] = false at hnew
    rw [startedPath, if_neg (by simp [hnew])] at he
    obtain ⟨hend, hframe, hstarted⟩ := start_keeps hi m [] [] w (above_nil _) he fits
    have hpath : m.activePath [] (m.start h [] w) = m.activePath [] w :=
      activePath_congr m [] fun ρ _ => congrFun hframe.current ρ
    rw [startedPath]
    simp only [MachineOp.run, hstarted, if_true, hpath]
    exact hend
  | checkTransitions =>
    simp only [MachineOp.run]
    by_cases hs : w.calledStart [] = true
    · rw [startedPath, if_pos hs] at he
      obtain ⟨hend, hsame⟩ := checkTransitions_keeps hi m [] [] w (above_nil _) he hok
      rw [startedPath, hsame.started, if_pos hs]
      exact hend
    · have hpanic : m.checkTransitions h [] w =
          h.panic "Error: check_transitions called before StateMachine.start()" w := by
        obtain ⟨d, nested⟩ := m
        rw [Machine.checkTransitions, if_pos (by simpa using hs)]
      rw [hpanic]
      have hu := hi.panic "Error: check_transitions called before StateMachine.start()" w
      rw [startedPath, if_neg hs] at he
      rw [startedPath, hu.frame.started, if_neg hs]
      exact he.onlyUser hu
  | forceChangeState state =>
    obtain ⟨hs, hchange⟩ := hok
    rw [startedPath, if_pos hs] at he
    obtain ⟨hend, hsame⟩ := performStateChange_keeps hi (above_nil _) he hchange
    simp only [MachineOp.run, Machine.forceChangeState]
    rw [startedPath, hsame.started, if_pos hs]
    exact hend

/-- The slots queued are those of `F` whose timeout has not fired and those held. -/
theorem mem_queue_of_entered (he : Entered F P w) (i : Slot) :
    i ∈ queue w.sched ↔ (i ∈ F ∧ firedTimeout w.sched i = false) ∨ i ∈ heldSlots w P := by
  obtain ⟨q, hq⟩ := he.sound
  rw [(wellFormed_of_consistent hq).queued i, he.taken i]
  constructor
  · rintro ⟨hF | hheld, hf⟩
    · exact .inl ⟨hF, hf⟩
    · exact .inr hheld
  · rintro (⟨hF, hf⟩ | hheld)
    · exact ⟨.inl hF, hf⟩
    · refine ⟨.inr hheld, ?_⟩
      obtain ⟨x, hx, hi⟩ := List.mem_flatMap.mp hheld
      obtain ⟨a, ha, rfl⟩ := List.mem_map.mp hi
      obtain ⟨hmem, hon⟩ := List.mem_filter.mp ha
      exact firedTimeout_of_repeating (he.registered x hx a hmem hon).repeating

/-- **The activity invariant**: in every state of a run in order, the states entered
are the active path, their cyclic actions are registered, each in a slot of its own,
and besides the slots `F` of others the scheduler queues no other slot. -/
theorem activity (hi : Inert h) {w₀ w : World υ} (h0 : Entered F [] w₀)
    (hnew : w₀.calledStart [] = false) {ls : List (Label υ)}
    (r : Run (Step h m) (fun _ l => OpOk h F m l) w₀ ls w) :
    Entered F (startedPath m w) w ∧
    ∀ i, i ∈ queue w.sched ↔
      (i ∈ F ∧ firedTimeout w.sched i = false) ∨ i ∈ heldSlots w (startedPath m w) := by
  have he : Entered F (startedPath m w) w := by
    refine r.invariant (P := fun w => Entered F (startedPath m w) w) ?_ ?_
    · rw [startedPath, if_neg (by simp [hnew])]
      exact h0
    · rintro t ⟨v, op⟩ u ht hok ⟨hb, rfl⟩
      refine op_keeps hi ?_ hok
      rw [between_path hb]
      exact between_entered hb ht
  exact ⟨he, mem_queue_of_entered he⟩

/-! ### Machines nested once and twice -/

/-- Callbacks that do nothing; every guard is true. -/
def idle : Hooks Unit where
  action _ w := w
  predicate _ w := (true, w)
  panic _ w := w
  addStateOrders _ w := w
  removeStateOrders _ w := w

theorem idle_inert : Inert idle :=
  ⟨fun _ _ => .refl _, fun _ _ => .refl _, fun _ _ => .refl _, fun _ _ => .refl _,
    fun _ _ => .refl _⟩

/-- A machine of two states, one of them with the given machines below it. -/
def twoStates (nested : Nested) : Machine := .mk { states := [{}, {}] } nested

/-- Every machine in state 0, and nothing started. The cyclic actions are those of
state 0 of the machine bound first. -/
def fresh (l : List TimedAction) : World Unit where
  currentState _ := 0
  cyclicActions π s := if π = [0] ∧ s = 0 then l else []
  sched := initial
  user := ()

theorem fresh_entered {l : List TimedAction} (hl : ∀ a ∈ l, a.isOn = false) :
    Entered ∅ [] (fresh l) := by
  refine ⟨⟨.nil, fun x _ a ha => ?_, by simp, .nil, by simp, fun i => ?_,
    [], Consistent.initial⟩, .refl _, by simp⟩
  · simp only [fresh] at ha
    split at ha
    · exact hl a ha
    · cases ha
  · have : initial.isFree i = true := by revert i; decide
    simp [fresh, heldSlots, this]

/-- A machine with one bound to its state 0. -/
def nestedOnce : Machine := twoStates (.cons 0 (twoStates .nil) .nil)

/-- A nested machine with a cyclic action, started and left. -/
theorem activity_nested_once :
    let w := nestedOnce.forceChangeState idle [] 1
      (nestedOnce.start idle [] (fresh [{ action := some 0, period := 5#32 }]))
    Entered ∅ (startedPath nestedOnce w) w := by
  let m := nestedOnce
  let w := fresh [{ action := some 0, period := 5#32 }]
  have h0 : Entered ∅ [] w := fresh_entered (by simp)
  have fits : Fits ∅ w [([], 0), ([0], 0)] := by
    unfold Fits Accepted
    decide
  have fits1 : Fits ∅ w [([], 1)] := by
    unfold Fits Accepted
    decide
  obtain ⟨-, hframe, hstarted⟩ := start_keeps idle_inert m [] [] w (above_nil _) h0 fits
  generalize hv : m.start idle [] w = v at hframe hstarted
  have hbound : ∀ j n, m.bound 0 = some (j, n) → n.bound (v.currentState [j]) = none := by
    rintro j n hb
    cases hb
    rfl
  have hchange : ChangeOk ∅ m [] [] 1 v := by
    intro _
    rw [hframe.current]
    exact ⟨hbound, nofun, fits1.congr hframe.actions⟩
  have r : Run (Step idle m) (fun _ l => OpOk idle ∅ m l) w
      [(w, .start), (v, .forceChangeState 1)] (m.forceChangeState idle [] 1 v) :=
    .cons ⟨rfl, fits⟩ ⟨⟨rfl, .refl _⟩, hv.symm⟩
      (.single ⟨hstarted, hchange⟩ ⟨⟨rfl, .refl _⟩, rfl⟩)
  exact (activity idle_inert h0 rfl r).1

/-- **Two levels down**: with the machine bound to state 0 itself nesting one, a
change away from state 0 leaves the state two levels down entered. -/
theorem nested_two_levels :
    ¬ ∀ (m : Machine) (w₀ : World Unit) (ops : List MachineOp), Entered ∅ [] w₀ →
      (openStates (ops.foldl (fun w op => op.run idle m w) (m.start idle [] w₀)).trace).Perm
        (m.activePath [] (ops.foldl (fun w op => op.run idle m w) (m.start idle [] w₀))) := by
  intro h
  have := h (twoStates (.cons 0 nestedOnce .nil)) (fresh [])
    [.forceChangeState 1] (fresh_entered (by simp))
  have hlen := this.length_eq
  exact absurd hlen (by decide)

end StLib.StateMachine.ActivityInvariant
