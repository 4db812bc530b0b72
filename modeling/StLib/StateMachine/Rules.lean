import StLib.StateMachine.Model

/-! # Rules for operations whose callbacks interfere

What a callback does to the world is the program's business. A `Monitor` asks
something of each callback and each registration of cyclic actions, at the world it
happens in; `CheckMeets` and `StartMeets` say that an operation meets it. A
property that every such step keeps (`Keeps`) is kept by the operation
(`checkTransitions_rule`, `start_rule`), whatever else the callbacks do.

The property is a family over a pending state: while the exit actions of a state
run, the machine bound to it is still to be exited. -/
namespace StLib.StateMachine.Rules

open StLib.Scheduler.Model StLib.StateMachine.TimedActions StLib.StateMachine.Model

variable {υ : Type}

/-! ## Nested machines through the binding they are reached by -/

section bindings
variable (h : Hooks υ) (π : Addr) (w : World υ)

theorem nested_checkTransitions (s : Nat) : ∀ (nested : Nested) (j : Nat),
    nested.checkTransitions h s j π w = match nested.boundFrom s j with
      | some (k, n) => n.checkTransitions h (k :: π) w
      | none => w
  | .nil, _ => by rw [Nested.checkTransitions, Nested.boundFrom]
  | .cons state machine rest, j => by
    rw [Nested.checkTransitions, Nested.boundFrom]
    split
    · rfl
    · exact nested_checkTransitions s rest (j + 1)

theorem nested_start (s : Nat) : ∀ (nested : Nested) (j : Nat),
    nested.start h s j π w = match nested.boundFrom s j with
      | some (k, n) => n.start h (k :: π) w
      | none => w
  | .nil, _ => by rw [Nested.start, Nested.boundFrom]
  | .cons state machine rest, j => by
    rw [Nested.start, Nested.boundFrom]
    split
    · rfl
    · exact nested_start s rest (j + 1)

theorem checkTransitions_eq (m : Machine) (hs : w.calledStart π = true) :
    m.checkTransitions h π w =
      match m.bound ((m.takeTransition h π w).currentState π) with
      | some (j, n) => n.checkTransitions h (j :: π) (m.takeTransition h π w)
      | none => m.takeTransition h π w := by
  obtain ⟨d, nested⟩ := m
  rw [Machine.checkTransitions, if_neg (by simp [hs]), nested_checkTransitions]
  rfl

theorem start_eq (m : Machine) :
    m.start h π w = m.nested.markStarted π
      (match m.bound ((m.enter h π (w.setCalledStart π)).currentState π) with
      | some (j, n) => n.start h (j :: π) (m.enter h π (w.setCalledStart π))
      | none => m.enter h π (w.setCalledStart π)) := by
  obtain ⟨d, nested⟩ := m
  rw [Machine.start, nested_start]
  rfl

end bindings

/-! ## Monitors -/

/-- `action` gets the state that the running change exits after the action. -/
structure Monitor (υ : Type) where
  action : Option (Addr × Nat) → Callback → World υ → Prop := fun _ _ _ => True
  predicate : Guard → World υ → Prop := fun _ _ => True
  panic : World υ → Prop := fun _ => True
  register : Addr → Nat → World υ → Prop := fun _ _ _ => True

section meets
variable (h : Hooks υ) (M : Monitor υ)

def ActionsMeet (X : Option (Addr × Nat)) : List (Option Callback) → World υ → Prop
  | [], _ => True
  | none :: rest, w => ActionsMeet X rest w
  | some c :: rest, w => M.action X c w ∧ ActionsMeet X rest (h.action c w)

def EnterMeets (d : StateDef) (π : Addr) (s : Nat) (w : World υ) : Prop :=
  ActionsMeet h M none d.onEnterActions (w.log (.entered π s)) ∧
    M.register π s (runActions h d.onEnterActions (w.log (.entered π s)))

def ExitMeets (X : Option (Addr × Nat)) (d : StateDef) (π : Addr) (s : Nat) (w : World υ) : Prop :=
  ActionsMeet h M X d.onExitActions (unregisterAllTimedActions π s (w.log (.exited π s)))

/-- The current state of the machine bound to the current state. -/
def pendingBound (m : Machine) (π : Addr) (w : World υ) : Option (Addr × Nat) :=
  (m.bound (w.currentState π)).map fun p => (p.1 :: π, w.currentState (p.1 :: π))

def LeaveMeets (m : Machine) (π : Addr) (w : World υ) : Prop :=
  ExitMeets h M (pendingBound m π w) (m.state (w.currentState π)) π (w.currentState π) w ∧
  let v := m.exit h π w
  ∀ j n, m.bound (v.currentState π) = some (j, n) →
    ExitMeets h M none (n.state (v.currentState (j :: π))) (j :: π) (v.currentState (j :: π)) v

def ArriveMeets (m : Machine) (π : Addr) (w : World υ) : Prop :=
  EnterMeets h M (m.state (w.currentState π)) π (w.currentState π) w ∧
  let v := m.enter h π w
  ∀ j n, m.bound (v.currentState π) = some (j, n) →
    EnterMeets h M (n.state (v.currentState (j :: π))) (j :: π) (v.currentState (j :: π)) v

def ChangeMeets (m : Machine) (π : Addr) (target : Nat) (w : World υ) : Prop :=
  w.currentState π ≠ target →
    LeaveMeets h M m π w ∧ ArriveMeets h M m π ((m.leave h π w).setCurrentState π target)

def GuardsMeet : List Transition → World υ → Prop
  | [], _ => True
  | t :: rest, w => M.predicate t.predicate w ∧
    ((h.predicate t.predicate w).1 = false → GuardsMeet rest (h.predicate t.predicate w).2)

def TakeMeets (m : Machine) (π : Addr) (w : World υ) : Prop :=
  GuardsMeet h M (m.slice (w.currentState π)) w ∧
  let r := firstTrue h (m.slice (w.currentState π)) w
  ∀ target, r.1 = some target → ChangeMeets h M m π target r.2

mutual
def CheckMeets : Machine → Addr → World υ → Prop
  | .mk d nested, π, w =>
    if !w.calledStart π then M.panic w
    else
      let w' := Machine.takeTransition h (.mk d nested) π w
      TakeMeets h M (.mk d nested) π w ∧ NestedCheckMeets nested (w'.currentState π) 0 π w'

def NestedCheckMeets : Nested → Nat → Nat → Addr → World υ → Prop
  | .nil, _, _, _, _ => True
  | .cons state machine rest, s, j, π, w =>
    if state = s then CheckMeets machine (j :: π) w else NestedCheckMeets rest s (j + 1) π w
end

mutual
def StartMeets : Machine → Addr → World υ → Prop
  | .mk d nested, π, w =>
    let w' := Machine.enter h (.mk d nested) π (w.setCalledStart π)
    EnterMeets h M (Machine.state (.mk d nested) (w.currentState π)) π (w.currentState π)
        (w.setCalledStart π) ∧
      NestedStartMeets nested (w'.currentState π) 0 π w'

def NestedStartMeets : Nested → Nat → Nat → Addr → World υ → Prop
  | .nil, _, _, _, _ => True
  | .cons state machine rest, s, j, π, w =>
    if state = s then StartMeets machine (j :: π) w else NestedStartMeets rest s (j + 1) π w
end

end meets

/-! ## The callbacks a machine uses -/

def StateUses (A : Callback → Prop) (d : StateDef) : Prop :=
  ∀ c, some c ∈ d.onEnterActions ∨ some c ∈ d.onExitActions → A c

mutual
def MachineUses (A : Callback → Prop) : Machine → Prop
  | .mk d nested => (∀ st ∈ d.states, StateUses A st) ∧ NestedUses A nested

def NestedUses (A : Callback → Prop) : Nested → Prop
  | .nil => True
  | .cons _ machine rest => MachineUses A machine ∧ NestedUses A rest
end

theorem uses_state {A : Callback → Prop} {m : Machine} (hu : MachineUses A m) (s : Nat) :
    StateUses A (m.state s) := by
  obtain ⟨d, nested⟩ := m
  rw [MachineUses] at hu
  unfold Machine.state
  rw [List.getD_eq_getElem?_getD]
  cases hs : (Machine.mk d nested).d.states[s]? with
  | none => exact fun c hc => hc.elim (absurd · List.not_mem_nil) (absurd · List.not_mem_nil)
  | some st => exact hu.1 st (List.mem_of_getElem? hs)

theorem uses_boundFrom {A : Callback → Prop} {s : Nat} : ∀ {nested : Nested} {i j : Nat}
    {n : Machine}, NestedUses A nested → nested.boundFrom s i = some (j, n) → MachineUses A n
  | .nil, _, _, _, _, h => by cases h
  | .cons state machine rest, i, j, n, hu, h => by
    rw [NestedUses] at hu
    rw [Nested.boundFrom] at h
    split at h
    · cases h
      exact hu.1
    · exact uses_boundFrom hu.2 h

theorem uses_bound {A : Callback → Prop} {m : Machine} (hu : MachineUses A m) {s j : Nat}
    {n : Machine} (hb : m.bound s = some (j, n)) : MachineUses A n := by
  obtain ⟨d, nested⟩ := m
  rw [MachineUses] at hu
  exact uses_boundFrom hu.2 hb

/-! ## Rules -/

/-- Registering changes the cyclic actions and the scheduler, and may panic. -/
theorem registerAllTimedActions_rule {h : Hooks υ} {P : World υ → Prop} {π : Addr} {s : Nat}
    {w : World υ} (hset : ∀ l sched, P { w.setCyclicActions π s l with sched })
    (hpanic : ∀ msg w, P w → P (h.panic msg w)) : P (registerAllTimedActions h π s w) := by
  unfold registerAllTimedActions
  dsimp only
  split
  · exact hset _ _
  · exact hpanic _ _ (hset _ _)

/-- What the steps of entering and exiting states keep. -/
structure KeepsStates (h : Hooks υ) (M : Monitor υ) (A : Callback → Prop)
    (P : Option (Addr × Nat) → World υ → Prop) : Prop where
  weaken : ∀ X w, P none w → P X w
  action : ∀ X c w, A c → M.action X c w → P X w → P X (h.action c w)
  entered : ∀ π s w, P none w → P none (w.log (.entered π s))
  register : ∀ π s w, M.register π s w → P none w → P none (registerAllTimedActions h π s w)
  unregister : ∀ π s w, P (some (π, s)) w →
    P none (unregisterAllTimedActions π s (w.log (.exited π s)))
  addStateOrders : ∀ ids w, P none w → P none (h.addStateOrders ids w)
  removeStateOrders : ∀ ids w, P none w → P none (h.removeStateOrders ids w)

/-- What the steps of the machines at `ρ₀` and below keep. -/
structure Keeps (ρ₀ : Addr) (h : Hooks υ) (M : Monitor υ) (A : Callback → Prop)
    (P : Option (Addr × Nat) → World υ → Prop) : Prop extends KeepsStates h M A P where
  still : ∀ c w, ∀ ρ, ρ₀ <:+ ρ → (h.action c w).currentState ρ = w.currentState ρ
  predicate : ∀ g w, M.predicate g w → P none w → P none (h.predicate g w).2
  panic : ∀ msg w, M.panic w → P none w → P none (h.panic msg w)
  current : ∀ π s w, ρ₀ <:+ π → P none w → P none (w.setCurrentState π s)
  started : ∀ π w, ρ₀ <:+ π → P none w → P none (w.setCalledStart π)

section states
variable {h : Hooks υ} {M : Monitor υ} {A : Callback → Prop}
  {P : Option (Addr × Nat) → World υ → Prop} (hk : KeepsStates h M A P)
include hk

theorem runActions_rule {X : Option (Addr × Nat)} : ∀ {l : List (Option Callback)} {w : World υ},
    (∀ c, some c ∈ l → A c) → ActionsMeet h M X l w → P X w → P X (runActions h l w)
  | [], _, _, _, hp => hp
  | none :: rest, w, ha, hm, hp =>
    runActions_rule (l := rest) (fun c hc => ha c (List.mem_cons_of_mem _ hc)) hm hp
  | some c :: rest, w, ha, ⟨hc, hm⟩, hp =>
    runActions_rule (l := rest) (fun c hc => ha c (List.mem_cons_of_mem _ hc)) hm
      (hk.action X c w (ha c (by simp)) hc hp)

theorem enterState_rule {d : StateDef} {π : Addr} {s : Nat} {w : World υ}
    (hu : StateUses A d) (hm : EnterMeets h M d π s w) (hp : P none w) :
    P none (enterState h d π s w) :=
  hk.register π s _ hm.2
    (runActions_rule hk (fun c hc => hu c (.inl hc)) hm.1 (hk.entered π s w hp))

theorem exitState_rule {X : Option (Addr × Nat)} {d : StateDef} {π : Addr} {s : Nat} {w : World υ}
    (hu : StateUses A d) (hm : ExitMeets h M X d π s w) (hp : P (some (π, s)) w) :
    P X (exitState h d π s w) :=
  runActions_rule hk (fun c hc => hu c (.inr hc)) hm (hk.weaken X _ (hk.unregister π s w hp))

end states

section machines
variable {ρ₀ : Addr} {h : Hooks υ} {M : Monitor υ} {A : Callback → Prop}
  {P : Option (Addr × Nat) → World υ → Prop} (hk : Keeps ρ₀ h M A P)
include hk

theorem runActions_still {ρ : Addr} (hρ : ρ₀ <:+ ρ) : ∀ (l : List (Option Callback)) (w : World υ),
    (runActions h l w).currentState ρ = w.currentState ρ
  | [], _ => rfl
  | none :: rest, w => runActions_still hρ rest w
  | some c :: rest, w => (runActions_still hρ rest _).trans (hk.still c w ρ hρ)

theorem exit_still (m : Machine) (π : Addr) (w : World υ) {ρ : Addr} (hρ : ρ₀ <:+ ρ) :
    (m.exit h π w).currentState ρ = w.currentState ρ :=
  runActions_still hk hρ _ _

variable {m : Machine} {π : Addr} {w : World υ}

/-- Leaving a state: the exit actions of the machine run while the bound machine is
pending. -/
theorem leave_rule (hu : MachineUses A m) (hπ : ρ₀ <:+ π) (hm : LeaveMeets h M m π w)
    (hp : P none w) : P none (m.leave h π w) := by
  obtain ⟨hexit, hbound⟩ := hm
  have hmid : P (pendingBound m π w) (m.exit h π w) :=
    exitState_rule hk.toKeepsStates (uses_state hu _) hexit (hk.weaken _ w hp)
  have hleft : P none (m.exitBound h π (m.exit h π w)) := by
    dsimp only at hbound
    rw [exit_still hk m π w hπ] at hbound
    unfold Machine.exitBound
    unfold pendingBound at hmid
    rw [exit_still hk m π w hπ]
    cases hb : m.bound (w.currentState π) with
    | none =>
      rw [hb] at hmid
      exact hmid
    | some p =>
      obtain ⟨j, n⟩ := p
      rw [hb] at hmid
      have hj : ρ₀ <:+ j :: π := hπ.trans (List.suffix_cons j π)
      refine exitState_rule hk.toKeepsStates (uses_state (uses_bound hu hb) _) (hbound j n hb) ?_
      rw [exit_still hk m π w hj]
      exact hmid
  unfold Machine.leave Machine.removeStateOrders
  dsimp only
  split
  · exact hk.removeStateOrders _ _ hleft
  · exact hleft

theorem arrive_rule (hu : MachineUses A m) (hm : ArriveMeets h M m π w) (hp : P none w) :
    P none (m.arrive h π w) := by
  obtain ⟨henter, hbound⟩ := hm
  have hmid : P none (m.enter h π w) :=
    enterState_rule hk.toKeepsStates (uses_state hu _) henter hp
  have harrived : P none (m.enterBound h π (m.enter h π w)) := by
    unfold Machine.enterBound
    cases hb : m.bound ((m.enter h π w).currentState π) with
    | none => exact hmid
    | some p =>
      obtain ⟨j, n⟩ := p
      exact enterState_rule hk.toKeepsStates (uses_state (uses_bound hu hb) _) (hbound j n hb) hmid
  unfold Machine.arrive Machine.refreshStateOrders
  dsimp only
  split
  · exact hk.addStateOrders _ _ harrived
  · exact harrived

theorem performStateChange_rule {target : Nat} (hu : MachineUses A m) (hπ : ρ₀ <:+ π)
    (hm : ChangeMeets h M m π target w) (hp : P none w) :
    P none (m.performStateChange h π target w) := by
  unfold Machine.performStateChange
  split
  next => exact hp
  next hne =>
    obtain ⟨hleave, harrive⟩ := hm hne
    exact arrive_rule hk hu harrive (hk.current π target _ hπ (leave_rule hk hu hπ hleave hp))

theorem firstTrue_rule : ∀ {l : List Transition} {w : World υ}, GuardsMeet h M l w → P none w →
    P none (firstTrue h l w).2
  | [], _, _, hp => hp
  | t :: rest, w, ⟨hg, hm⟩, hp => by
    rw [firstTrue]
    split
    next => exact hk.predicate _ w hg hp
    next hf => exact firstTrue_rule (hm (by simpa using hf)) (hk.predicate _ w hg hp)

theorem takeTransition_rule (hu : MachineUses A m) (hπ : ρ₀ <:+ π) (hm : TakeMeets h M m π w)
    (hp : P none w) : P none (m.takeTransition h π w) := by
  obtain ⟨hguards, hchange⟩ := hm
  have hv := firstTrue_rule hk hguards hp
  unfold Machine.takeTransition
  generalize firstTrue h (m.slice (w.currentState π)) w = r at hchange hv
  obtain ⟨target, v⟩ := r
  cases target with
  | none => exact hv
  | some target => exact performStateChange_rule hk hu hπ (hchange target rfl) hv

end machines

section trees
variable {ρ₀ : Addr} {h : Hooks υ} {M : Monitor υ} {A : Callback → Prop}
  {P : Option (Addr × Nat) → World υ → Prop} (hk : Keeps ρ₀ h M A P)
include hk

mutual
/-- **The rule for `check_transitions`.** -/
theorem checkTransitions_rule : ∀ {m : Machine} {π : Addr} {w : World υ}, MachineUses A m →
    ρ₀ <:+ π → CheckMeets h M m π w → P none w → P none (m.checkTransitions h π w)
  | .mk d nested, π, w, hu, hπ, hm, hp => by
    rw [CheckMeets] at hm
    rw [Machine.checkTransitions]
    split
    next hs =>
      rw [if_pos hs] at hm
      exact hk.panic _ w hm hp
    next hs =>
      rw [if_neg hs] at hm
      have hv := takeTransition_rule hk hu hπ hm.1 hp
      rw [MachineUses] at hu
      exact nestedCheckTransitions_rule hu.2 hπ hm.2 hv

theorem nestedCheckTransitions_rule : ∀ {nested : Nested} {s j : Nat} {π : Addr} {w : World υ},
    NestedUses A nested → ρ₀ <:+ π → NestedCheckMeets h M nested s j π w → P none w →
    P none (nested.checkTransitions h s j π w)
  | .nil, _, _, _, _, _, _, _, hp => by rwa [Nested.checkTransitions]
  | .cons state machine rest, s, j, π, w, hu, hπ, hm, hp => by
    rw [NestedUses] at hu
    rw [NestedCheckMeets] at hm
    rw [Nested.checkTransitions]
    split
    next hs =>
      rw [if_pos hs] at hm
      exact checkTransitions_rule hu.1 (hπ.trans (List.suffix_cons j π)) hm hp
    next hs =>
      rw [if_neg hs] at hm
      exact nestedCheckTransitions_rule hu.2 hπ hm hp
end

mutual
/-- **The rule for `start`.** -/
theorem start_rule : ∀ {m : Machine} {π : Addr} {w : World υ}, MachineUses A m →
    ρ₀ <:+ π → StartMeets h M m π w → P none w → P none (m.start h π w)
  | .mk d nested, π, w, hu, hπ, hm, hp => by
    rw [StartMeets] at hm
    rw [Machine.start]
    have hv : P none (Machine.enter h (.mk d nested) π (w.setCalledStart π)) :=
      enterState_rule hk.toKeepsStates (uses_state hu _) hm.1 (hk.started π w hπ hp)
    rw [MachineUses] at hu
    have hn := nestedStart_rule hu.2 hπ hm.2 hv
    cases nested with
    | nil => exact hn
    | cons => exact hk.started _ _ (hπ.trans (List.suffix_cons _ π)) hn

theorem nestedStart_rule : ∀ {nested : Nested} {s j : Nat} {π : Addr} {w : World υ},
    NestedUses A nested → ρ₀ <:+ π → NestedStartMeets h M nested s j π w → P none w →
    P none (nested.start h s j π w)
  | .nil, _, _, _, _, _, _, _, hp => by rwa [Nested.start]
  | .cons state machine rest, s, j, π, w, hu, hπ, hm, hp => by
    rw [NestedUses] at hu
    rw [NestedStartMeets] at hm
    rw [Nested.start]
    split
    next hs =>
      rw [if_pos hs] at hm
      exact start_rule hu.1 (hπ.trans (List.suffix_cons j π)) hm hp
    next hs =>
      rw [if_neg hs] at hm
      exact nestedStart_rule hu.2 hπ hm hp
end

end trees

/-! ## Monitors that ask nothing of a run -/

/-- A monitor that the steps meet anywhere. -/
structure Monitor.Free (M : Monitor υ) : Prop where
  action : ∀ X c w, M.action X c w
  predicate : ∀ g w, M.predicate g w
  panic : ∀ w, M.panic w
  register : ∀ π s w, M.register π s w

section free
variable {h : Hooks υ} {M : Monitor υ} (free : M.Free)
include free

theorem actions_free (X : Option (Addr × Nat)) : ∀ (l : List (Option Callback)) (w : World υ),
    ActionsMeet h M X l w
  | [], _ => trivial
  | none :: rest, w => actions_free X rest w
  | some c :: rest, w => ⟨free.action X c w, actions_free X rest _⟩

theorem enter_free (d : StateDef) (π : Addr) (s : Nat) (w : World υ) : EnterMeets h M d π s w :=
  ⟨actions_free free _ _ _, free.register _ _ _⟩

theorem change_free (m : Machine) (π : Addr) (target : Nat) (w : World υ) :
    ChangeMeets h M m π target w :=
  fun _ => ⟨⟨actions_free free _ _ _, fun _ _ _ => actions_free free _ _ _⟩,
    enter_free free _ _ _ _, fun _ _ _ => enter_free free _ _ _ _⟩

theorem guards_free : ∀ (l : List Transition) (w : World υ), GuardsMeet h M l w
  | [], _ => trivial
  | _ :: rest, w => ⟨free.predicate _ w, fun _ => guards_free rest _⟩

mutual
theorem check_free : ∀ (m : Machine) (π : Addr) (w : World υ), CheckMeets h M m π w
  | .mk d nested, π, w => by
    rw [CheckMeets]
    split
    · exact free.panic w
    · exact ⟨⟨guards_free free _ _, fun target _ => change_free free _ _ target _⟩,
        nestedCheck_free nested _ _ _ _⟩

theorem nestedCheck_free : ∀ (nested : Nested) (s j : Nat) (π : Addr) (w : World υ),
    NestedCheckMeets h M nested s j π w
  | .nil, _, _, _, _ => by rw [NestedCheckMeets]; trivial
  | .cons state machine rest, s, j, π, w => by
    rw [NestedCheckMeets]
    split
    · exact check_free machine _ w
    · exact nestedCheck_free rest _ _ _ w
end

mutual
theorem start_free : ∀ (m : Machine) (π : Addr) (w : World υ), StartMeets h M m π w
  | .mk d nested, π, w => by
    rw [StartMeets]
    exact ⟨enter_free free _ _ _ _, nestedStart_free nested _ _ _ _⟩

theorem nestedStart_free : ∀ (nested : Nested) (s j : Nat) (π : Addr) (w : World υ),
    NestedStartMeets h M nested s j π w
  | .nil, _, _, _, _ => by rw [NestedStartMeets]; trivial
  | .cons state machine rest, s, j, π, w => by
    rw [NestedStartMeets]
    split
    · exact start_free machine _ w
    · exact nestedStart_free rest _ _ _ w
end

end free

/-- The monitor that asks nothing. -/
theorem monitor_free : ({} : Monitor υ).Free :=
  ⟨fun _ _ _ => trivial, fun _ _ => trivial, fun _ => trivial, fun _ _ _ => trivial⟩

/-! ## Properties that hold while a state is exited

They need no binding to stay the same, so the callbacks may change the current states. -/

section changes
variable {h : Hooks υ} {P : World υ → Prop}
  (hk : KeepsStates h {} (fun _ => True) fun _ => P)
include hk

theorem enterState_plain (d : StateDef) (π : Addr) (s : Nat) {w : World υ} (hp : P w) :
    P (enterState h d π s w) :=
  enterState_rule hk (fun _ _ => trivial) (enter_free monitor_free _ _ _ _) hp

theorem exitState_plain (d : StateDef) (π : Addr) (s : Nat) {w : World υ} (hp : P w) :
    P (exitState h d π s w) :=
  exitState_rule hk (X := none) (fun _ _ => trivial) (actions_free monitor_free _ _ _) hp

theorem leave_plain (m : Machine) (π : Addr) {w : World υ} (hp : P w) : P (m.leave h π w) := by
  have hbound : P (m.exitBound h π (m.exit h π w)) := by
    unfold Machine.exitBound
    split
    · exact exitState_plain hk _ _ _ (exitState_plain hk _ _ _ hp)
    · exact exitState_plain hk _ _ _ hp
  unfold Machine.leave Machine.removeStateOrders
  dsimp only
  split
  · exact hk.removeStateOrders _ _ hbound
  · exact hbound

theorem arrive_plain (m : Machine) (π : Addr) {w : World υ} (hp : P w) : P (m.arrive h π w) := by
  have hbound : P (m.enterBound h π (m.enter h π w)) := by
    unfold Machine.enterBound
    split
    · exact enterState_plain hk _ _ _ (enterState_plain hk _ _ _ hp)
    · exact enterState_plain hk _ _ _ hp
  unfold Machine.arrive Machine.refreshStateOrders
  dsimp only
  split
  · exact hk.addStateOrders _ _ hbound
  · exact hbound

theorem performStateChange_plain (hcur : ∀ π s w, P w → P (w.setCurrentState π s)) (m : Machine)
    (π : Addr) (target : Nat) {w : World υ} (hp : P w) : P (m.performStateChange h π target w) := by
  unfold Machine.performStateChange
  split
  · exact hp
  · exact arrive_plain hk m π (hcur _ _ _ (leave_plain hk m π hp))

end changes

/-- What every step of a `check_transitions` keeps. -/
structure KeepsPlain (h : Hooks υ) (P : World υ → Prop) : Prop
    extends KeepsStates h {} (fun _ => True) fun _ => P where
  predicate : ∀ g w, P w → P (h.predicate g w).2
  panic : ∀ msg w, P w → P (h.panic msg w)
  current : ∀ π s w, P w → P (w.setCurrentState π s)

section plain
variable {h : Hooks υ} {P : World υ → Prop} (hk : KeepsPlain h P)
include hk

theorem firstTrue_plain : ∀ (l : List Transition) {w : World υ}, P w → P (firstTrue h l w).2
  | [], _, hp => hp
  | t :: rest, w, hp => by
    rw [firstTrue]
    split
    · exact hk.predicate _ w hp
    · exact firstTrue_plain rest (hk.predicate _ w hp)

theorem takeTransition_plain (m : Machine) (π : Addr) {w : World υ} (hp : P w) :
    P (m.takeTransition h π w) := by
  have hv := firstTrue_plain hk (m.slice (w.currentState π)) hp
  unfold Machine.takeTransition
  dsimp only
  split
  · exact performStateChange_plain hk.toKeepsStates hk.current m π _ hv
  · exact hv

mutual
theorem checkTransitions_plain : ∀ (m : Machine) (π : Addr) {w : World υ}, P w →
    P (m.checkTransitions h π w)
  | .mk d nested, π, w, hp => by
    rw [Machine.checkTransitions]
    split
    · exact hk.panic _ w hp
    · exact nestedCheckTransitions_plain nested _ _ π (takeTransition_plain hk (.mk d nested) π hp)

theorem nestedCheckTransitions_plain : ∀ (nested : Nested) (s j : Nat) (π : Addr) {w : World υ},
    P w → P (nested.checkTransitions h s j π w)
  | .nil, _, _, _, _, hp => by rwa [Nested.checkTransitions]
  | .cons state machine rest, s, j, π, w, hp => by
    rw [Nested.checkTransitions]
    split
    · exact checkTransitions_plain machine _ hp
    · exact nestedCheckTransitions_plain rest s _ π hp
end

variable (hs : ∀ π w, P w → P (w.setCalledStart π))
include hs

mutual
theorem start_plain : ∀ (m : Machine) (π : Addr) {w : World υ}, P w → P (m.start h π w)
  | .mk d nested, π, w, hp => by
    rw [Machine.start]
    have henter : P (Machine.enter h (.mk d nested) π (w.setCalledStart π)) :=
      enterState_plain hk.toKeepsStates _ _ _ (hs π w hp)
    have hn := nestedStart_plain nested
      ((Machine.enter h (.mk d nested) π (w.setCalledStart π)).currentState π) 0 π henter
    cases nested with
    | nil => exact hn
    | cons => exact hs _ _ hn

theorem nestedStart_plain : ∀ (nested : Nested) (s j : Nat) (π : Addr) {w : World υ},
    P w → P (nested.start h s j π w)
  | .nil, _, _, _, _, hp => by rwa [Nested.start]
  | .cons state machine rest, s, j, π, w, hp => by
    rw [Nested.start]
    split
    · exact start_plain machine _ hp
    · exact nestedStart_plain rest s _ π hp
end

end plain

/-! ## Callbacks that leave the current states alone -/

/-- No callback changes a current state. -/
structure Still (h : Hooks υ) : Prop where
  action : ∀ c w, (h.action c w).currentState = w.currentState
  panic : ∀ msg w, (h.panic msg w).currentState = w.currentState
  addStateOrders : ∀ ids w, (h.addStateOrders ids w).currentState = w.currentState
  removeStateOrders : ∀ ids w, (h.removeStateOrders ids w).currentState = w.currentState

section still
variable {h : Hooks υ} (hs : Still h)
include hs

theorem keeps_still (w : World υ) : KeepsStates h {} (fun _ => True)
    fun _ v => v.currentState = w.currentState where
  weaken _ _ hv := hv
  action _ c v _ _ hv := (hs.action c v).trans hv
  entered _ _ _ hv := hv
  register _ _ _ _ hv := registerAllTimedActions_rule (P := fun v => v.currentState = w.currentState)
    (fun _ _ => hv) fun msg v hv => (hs.panic msg v).trans hv
  unregister _ _ _ hv := hv
  addStateOrders ids v hv := (hs.addStateOrders ids v).trans hv
  removeStateOrders ids v hv := (hs.removeStateOrders ids v).trans hv

theorem exitState_still (d : StateDef) (π : Addr) (s : Nat) (w : World υ) :
    (exitState h d π s w).currentState = w.currentState :=
  exitState_plain (keeps_still hs w) d π s rfl

theorem enterState_still (d : StateDef) (π : Addr) (s : Nat) (w : World υ) :
    (enterState h d π s w).currentState = w.currentState :=
  enterState_plain (keeps_still hs w) d π s rfl

theorem leave_still (m : Machine) (π : Addr) (w : World υ) :
    (m.leave h π w).currentState = w.currentState :=
  leave_plain (keeps_still hs w) m π rfl

theorem arrive_still (m : Machine) (π : Addr) (w : World υ) :
    (m.arrive h π w).currentState = w.currentState :=
  arrive_plain (keeps_still hs w) m π rfl

/-- A change of the machine at `π` changes no other current state. -/
theorem performStateChange_still (m : Machine) (π : Addr) (target : Nat) (w : World υ) {ρ : Addr}
    (hρ : ρ ≠ π) : (m.performStateChange h π target w).currentState ρ = w.currentState ρ := by
  unfold Machine.performStateChange
  split
  · rfl
  · rw [arrive_still hs]
    exact (Function.update_of_ne hρ ..).trans (congrFun (leave_still hs m π w) ρ)

end still

/-! ## Callbacks that do the same -/

/-- Where `P` holds, the callbacks of `h` keep it and do what those of `h'` do. -/
structure Alike (P : World υ → Prop) (h h' : Hooks υ) : Prop where
  keeps : KeepsStates h {} (fun _ => True) fun _ => P
  current : ∀ π s w, P w → P (w.setCurrentState π s)
  action : ∀ c w, P w → h.action c w = h'.action c w
  register : ∀ π s w, P w → registerAllTimedActions h π s w = registerAllTimedActions h' π s w
  addStateOrders : ∀ ids w, h.addStateOrders ids w = h'.addStateOrders ids w
  removeStateOrders : ∀ ids w, h.removeStateOrders ids w = h'.removeStateOrders ids w

section alike
variable {P : World υ → Prop} {h h' : Hooks υ} (ha : Alike P h h')
include ha

theorem runActions_alike : ∀ {l : List (Option Callback)} {w : World υ}, P w →
    runActions h l w = runActions h' l w ∧ P (runActions h l w)
  | [], _, hp => ⟨rfl, hp⟩
  | none :: rest, _, hp => runActions_alike (l := rest) hp
  | some c :: rest, w, hp => by
    rw [runActions, runActions, ← ha.action c w hp]
    exact runActions_alike (l := rest) (ha.keeps.action none c w trivial trivial hp)

theorem enterState_alike (d : StateDef) (π : Addr) (s : Nat) {w : World υ} (hp : P w) :
    enterState h d π s w = enterState h' d π s w ∧ P (enterState h d π s w) := by
  obtain ⟨he, hp'⟩ := runActions_alike ha (l := d.onEnterActions) (ha.keeps.entered π s w hp)
  refine ⟨?_, ha.keeps.register π s _ trivial hp'⟩
  rw [enterState, enterState, ← he, ha.register π s _ hp']

theorem exitState_alike (d : StateDef) (π : Addr) (s : Nat) {w : World υ} (hp : P w) :
    exitState h d π s w = exitState h' d π s w ∧ P (exitState h d π s w) :=
  runActions_alike ha (ha.keeps.unregister π s w hp)

theorem leave_alike (m : Machine) (π : Addr) {w : World υ} (hp : P w) :
    m.leave h π w = m.leave h' π w ∧ P (m.leave h π w) := by
  obtain ⟨he, hp'⟩ := exitState_alike ha (m.state (w.currentState π)) π (w.currentState π) hp
  change m.exit h π w = m.exit h' π w at he
  change P (m.exit h π w) at hp'
  have hbound : m.exitBound h π (m.exit h π w) = m.exitBound h' π (m.exit h π w) ∧
      P (m.exitBound h π (m.exit h π w)) := by
    unfold Machine.exitBound
    split
    · exact exitState_alike ha _ _ _ hp'
    · exact ⟨rfl, hp'⟩
  unfold Machine.leave Machine.removeStateOrders
  rw [← he, ← hbound.1]
  dsimp only
  split
  · exact ⟨ha.removeStateOrders _ _, ha.keeps.removeStateOrders _ _ hbound.2⟩
  · exact ⟨rfl, hbound.2⟩

theorem arrive_alike (m : Machine) (π : Addr) {w : World υ} (hp : P w) :
    m.arrive h π w = m.arrive h' π w := by
  obtain ⟨he, hp'⟩ := enterState_alike ha (m.state (w.currentState π)) π (w.currentState π) hp
  change m.enter h π w = m.enter h' π w at he
  change P (m.enter h π w) at hp'
  have hbound : m.enterBound h π (m.enter h π w) = m.enterBound h' π (m.enter h π w) := by
    unfold Machine.enterBound
    split
    · exact (enterState_alike ha _ _ _ hp').1
    · rfl
  unfold Machine.arrive Machine.refreshStateOrders
  rw [← he, ← hbound]
  dsimp only
  split
  · exact ha.addStateOrders _ _
  · rfl

theorem performStateChange_alike (m : Machine) (π : Addr) (target : Nat) {w : World υ} (hp : P w) :
    m.performStateChange h π target w = m.performStateChange h' π target w := by
  obtain ⟨he, hp'⟩ := leave_alike ha m π hp
  unfold Machine.performStateChange
  rw [← he]
  split
  · rfl
  · exact arrive_alike ha m π (ha.current π target _ hp')

end alike

end StLib.StateMachine.Rules
