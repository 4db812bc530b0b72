import StLib.Base.Runs
import StLib.StateMachine.NestedStart

/-! # The announcement of state orders

`StateOrder` of `StateOrder.hpp`, and what a client knows from the orders it sends when
the machines change state. Of an operation only the last change of state matters. -/
namespace StLib.StateMachine.StateOrders

open StLib.Base.Runs
open StLib.Scheduler.Model StLib.StateMachine.TimedActions
open StLib.StateMachine.Model StLib.StateMachine.Rules StLib.StateMachine.NestedStart

variable {υ : Type}

/-! ## Announcements -/

inductive StateOrdersID
  | addStateOrders
  | removeStateOrders
deriving DecidableEq

/-- An order sent to the informer socket. -/
structure StateOrder where
  id : StateOrdersID
  stateOrdersIds : List (BitVec 16)
deriving DecidableEq

/-- Whether the informer socket has been set, what has been sent to it, and the program
around. -/
structure Announcer (υ : Type) where
  informerSocket : Bool := false
  sent : List StateOrder := []
  program : υ

/-- The callbacks of the program around. -/
structure Callbacks (υ : Type) where
  action : Callback → World (Announcer υ) → World (Announcer υ)
  predicate : Guard → World (Announcer υ) → Bool × World (Announcer υ)
  panic : String → World (Announcer υ) → World (Announcer υ)

def sendStateOrders (prog : Callbacks υ) (id : StateOrdersID) (ids : List (BitVec 16))
    (w : World (Announcer υ)) : World (Announcer υ) :=
  if w.user.informerSocket then
    { w with user := { w.user with sent := w.user.sent ++ [{ id, stateOrdersIds := ids }] } }
  else prog.panic "Informer Socket has not been set" w

def orderHooks (prog : Callbacks υ) : Hooks (Announcer υ) where
  action := prog.action
  predicate := prog.predicate
  panic := prog.panic
  addStateOrders := sendStateOrders prog .addStateOrders
  removeStateOrders := sendStateOrders prog .removeStateOrders

/-- The ids added and not removed since. -/
def available (sent : List StateOrder) (id : BitVec 16) : Bool :=
  sent.foldl (fun known o => if id ∈ o.stateOrdersIds then o.id = .addStateOrders else known) false

theorem available_concat (sent : List StateOrder) (o : StateOrder) (id : BitVec 16) :
    available (sent ++ [o]) id =
      if id ∈ o.stateOrdersIds then decide (o.id = .addStateOrders) else available sent id := by
  unfold available
  rw [List.foldl_append]
  rfl

mutual
/-- The orders of the states on the active path. -/
def Machine.attachedOrders : Machine → Addr → World υ → List (BitVec 16)
  | .mk d nested, π, w =>
    (Machine.state (.mk d nested) (w.currentState π)).stateOrdersIds ++
      Nested.attachedOrders nested (w.currentState π) 0 π w

def Nested.attachedOrders : Nested → Nat → Nat → Addr → World υ → List (BitVec 16)
  | .nil, _, _, _, _ => []
  | .cons state machine rest, s, j, π, w =>
    if state = s then Machine.attachedOrders machine (j :: π) w
    else Nested.attachedOrders rest s (j + 1) π w
end

/-- What is announced is what is attached to the active states, `above` to those above
the machine. -/
def SettledAt (m : Machine) (π : Addr) (above : List (BitVec 16)) (w : World (Announcer υ)) : Prop :=
  ∀ id, available w.user.sent id = true ↔ id ∈ above ++ Machine.attachedOrders m π w

def Settled (m : Machine) (w : World (Announcer υ)) : Prop := SettledAt m [] [] w

mutual
/-- The orders attached below `π` are read from the machines at `π` and below. -/
theorem machineOrders_congr {w v : World υ} : ∀ (m : Machine) (π : Addr),
    (∀ ρ : Addr, π.length ≤ ρ.length → v.currentState ρ = w.currentState ρ) →
    Machine.attachedOrders m π v = Machine.attachedOrders m π w
  | .mk d nested, π, hc => by
    rw [Machine.attachedOrders, Machine.attachedOrders, hc π (Nat.le_refl _),
      nestedOrders_congr nested _ 0 π fun ρ hρ => hc ρ (Nat.le_of_lt hρ)]

theorem nestedOrders_congr {w v : World υ} : ∀ (nested : Nested) (s j : Nat) (π : Addr),
    (∀ ρ : Addr, π.length < ρ.length → v.currentState ρ = w.currentState ρ) →
    Nested.attachedOrders nested s j π v = Nested.attachedOrders nested s j π w
  | .nil, _, _, _, _ => rfl
  | .cons state machine rest, s, j, π, hc => by
    rw [Nested.attachedOrders, Nested.attachedOrders,
      machineOrders_congr machine (j :: π) fun ρ hρ => hc ρ hρ,
      nestedOrders_congr rest s (j + 1) π hc]
end

/-! ## Changes of state -/

/-- A change of state of the machine at `addr` to `target`, in the world before it. -/
structure Change (υ : Type) where
  machine : Machine
  addr : Addr
  above : List (BitVec 16)
  target : Nat
  world : World (Announcer υ)

namespace Change

variable (c : Change υ)

def left : List (BitVec 16) := (c.machine.state (c.world.currentState c.addr)).stateOrdersIds

def entered : List (BitVec 16) := (c.machine.state c.target).stateOrdersIds

/-- The orders of the other states that are active after the change. -/
def others : List (BitVec 16) :=
  c.above ++ Nested.attachedOrders c.machine.nested c.target 0 c.addr c.world

/-- Apart from the orders of the target, those of the other active states are the ones
announced before, less those of the state left. -/
def Ok : Prop :=
  if c.world.user.informerSocket then
    ∀ id ∉ c.entered, id ∈ c.others ↔ available c.world.user.sent id = true ∧ id ∉ c.left
  else ∀ id, id ∈ c.entered ++ c.others ↔ available c.world.user.sent id = true

end Change

/-- The change that the transition taken by the machine at `π` makes. -/
def takenChange (h : Hooks (Announcer υ)) (m : Machine) (π : Addr) (above : List (BitVec 16))
    (w : World (Announcer υ)) : Option (Change υ) :=
  let r := firstTrue h (m.slice (w.currentState π)) w
  r.1.bind fun target =>
    if r.2.currentState π = target then none
    else some { machine := m, addr := π, above, target, world := r.2 }

mutual
/-- The last change of state in `check_transitions`. -/
def Machine.lastChange (h : Hooks (Announcer υ)) : Machine → Addr → List (BitVec 16) →
    World (Announcer υ) → Option (Change υ)
  | .mk d nested, π, above, w =>
    if !w.calledStart π then none
    else
      let w' := Machine.takeTransition h (.mk d nested) π w
      let ids := (Machine.state (.mk d nested) (w'.currentState π)).stateOrdersIds
      (Nested.lastChange h nested (w'.currentState π) 0 π (above ++ ids) w').or
        (takenChange h (.mk d nested) π above w)

def Nested.lastChange (h : Hooks (Announcer υ)) : Nested → Nat → Nat → Addr →
    List (BitVec 16) → World (Announcer υ) → Option (Change υ)
  | .nil, _, _, _, _, _ => none
  | .cons state machine rest, s, j, π, above, w =>
    if state = s then Machine.lastChange h machine (j :: π) above w
    else Nested.lastChange h rest s (j + 1) π above w
end

/-- The last change of state in an operation. -/
def lastChange (h : Hooks (Announcer υ)) (m : Machine) (w : World (Announcer υ)) :
    MachineOp → Option (Change υ)
  | .start => none
  | .checkTransitions => Machine.lastChange h m [] [] w
  | .forceChangeState state =>
    if w.currentState [] = state then none
    else some { machine := m, addr := [], above := [], target := state, world := w }

/-! ## Callbacks that leave the machines and the orders alone -/

structure Untouched (w v : World (Announcer υ)) : Prop extends SameMachines w v where
  informerSocket : v.user.informerSocket = w.user.informerSocket
  sent : v.user.sent = w.user.sent

theorem Untouched.refl (w : World (Announcer υ)) : Untouched w w := ⟨.refl w, rfl, rfl⟩

theorem Untouched.trans {w v u : World (Announcer υ)} (h : Untouched w v) (h' : Untouched v u) :
    Untouched w u :=
  ⟨h.toSameMachines.trans h'.toSameMachines, h'.informerSocket.trans h.informerSocket,
    h'.sent.trans h.sent⟩

structure Quiet (prog : Callbacks υ) : Prop where
  action : ∀ c w, Untouched w (prog.action c w)
  predicate : ∀ g w, Untouched w (prog.predicate g w).2
  panic : ∀ msg w, Untouched w (prog.panic msg w)

section quiet

variable {prog : Callbacks υ} (hq : Quiet prog)
include hq

theorem runActions_untouched : ∀ (l : List (Option Callback)) (w : World (Announcer υ)),
    Untouched w (runActions (orderHooks prog) l w)
  | [], w => .refl w
  | none :: rest, w => runActions_untouched rest w
  | some c :: rest, w => (hq.action c w).trans (runActions_untouched rest _)

theorem enterState_untouched (d : StateDef) (π : Addr) (s : Nat) (w : World (Announcer υ)) :
    Untouched w (enterState (orderHooks prog) d π s w) := by
  have hlog : Untouched w (w.log (.entered π s)) := ⟨⟨rfl, rfl⟩, rfl, rfl⟩
  have hactions := hlog.trans (runActions_untouched hq d.onEnterActions _)
  exact registerAllTimedActions_rule (P := Untouched w)
    (fun _ _ => hactions.trans ⟨⟨rfl, rfl⟩, rfl, rfl⟩) fun msg v hv => hv.trans (hq.panic msg v)

theorem exitState_untouched (d : StateDef) (π : Addr) (s : Nat) (w : World (Announcer υ)) :
    Untouched w (exitState (orderHooks prog) d π s w) := by
  have hoff : Untouched w (unregisterAllTimedActions π s (w.log (.exited π s))) :=
    ⟨⟨rfl, rfl⟩, rfl, rfl⟩
  exact hoff.trans (runActions_untouched hq d.onExitActions _)

theorem enterBound_untouched (m : Machine) (π : Addr) (w : World (Announcer υ)) :
    Untouched w (m.enterBound (orderHooks prog) π w) := by
  unfold Machine.enterBound
  split
  · exact enterState_untouched hq _ _ _ _
  · exact .refl w

theorem exitBound_untouched (m : Machine) (π : Addr) (w : World (Announcer υ)) :
    Untouched w (m.exitBound (orderHooks prog) π w) := by
  unfold Machine.exitBound
  split
  · exact exitState_untouched hq _ _ _ _
  · exact .refl w

/-- What sending `ids` does: without a socket nothing is sent. -/
structure Announced (id : StateOrdersID) (ids : List (BitVec 16)) (w v : World (Announcer υ)) :
    Prop extends SameMachines w v where
  informerSocket : v.user.informerSocket = w.user.informerSocket
  available : ∀ x, available v.user.sent x =
    if w.user.informerSocket = true ∧ x ∈ ids then decide (id = .addStateOrders)
    else available w.user.sent x

theorem send_announced (id : StateOrdersID) (ids : List (BitVec 16)) (w : World (Announcer υ)) :
    Announced id ids w
      (if ids.length ≠ 0 then sendStateOrders prog id ids w else w) := by
  by_cases hids : ids.length ≠ 0
  · rw [if_pos hids]
    unfold sendStateOrders
    by_cases hsocket : w.user.informerSocket = true
    · rw [if_pos hsocket]
      refine ⟨⟨rfl, rfl⟩, rfl, fun x => ?_⟩
      rw [available_concat]
      by_cases hx : x ∈ ids
      · rw [if_pos hx, if_pos ⟨hsocket, hx⟩]
      · rw [if_neg hx, if_neg fun h => hx h.2]
    · rw [if_neg hsocket]
      have hpanic := hq.panic "Informer Socket has not been set" w
      refine ⟨hpanic.toSameMachines, hpanic.informerSocket, fun x => ?_⟩
      rw [if_neg fun h => hsocket h.1, hpanic.sent]
  · rw [if_neg hids]
    have hnil : ids = [] := List.length_eq_zero_iff.mp (not_not.mp hids)
    refine ⟨.refl w, rfl, fun x => ?_⟩
    rw [hnil, if_neg fun h => List.not_mem_nil h.2]

omit hq in
theorem Announced.after {id : StateOrdersID} {ids : List (BitVec 16)}
    {w v u : World (Announcer υ)} (ha : Announced id ids v u) (hw : Untouched w v) :
    Announced id ids w u where
  toSameMachines := hw.toSameMachines.trans ha.toSameMachines
  informerSocket := ha.informerSocket.trans hw.informerSocket
  available x := by rw [ha.available, hw.informerSocket, hw.sent]

theorem leave_announced (m : Machine) (π : Addr) (w : World (Announcer υ)) :
    Announced .removeStateOrders (m.state (w.currentState π)).stateOrdersIds w
      (m.leave (orderHooks prog) π w) := by
  have hexit : Untouched w (m.exitBound (orderHooks prog) π (m.exit (orderHooks prog) π w)) :=
    (exitState_untouched hq _ _ _ w).trans (exitBound_untouched hq m π _)
  have hsend := send_announced hq .removeStateOrders
    (m.state ((m.exitBound (orderHooks prog) π (m.exit (orderHooks prog) π w)).currentState
      π)).stateOrdersIds (m.exitBound (orderHooks prog) π (m.exit (orderHooks prog) π w))
  rw [hexit.current] at hsend
  have hafter := hsend.after hexit
  rw [← hexit.current] at hafter ⊢
  exact hafter

theorem arrive_announced (m : Machine) (π : Addr) (w : World (Announcer υ)) :
    Announced .addStateOrders (m.state (w.currentState π)).stateOrdersIds w
      (m.arrive (orderHooks prog) π w) := by
  have henter : Untouched w (m.enterBound (orderHooks prog) π (m.enter (orderHooks prog) π w)) :=
    (enterState_untouched hq _ _ _ w).trans (enterBound_untouched hq m π _)
  have hsend := send_announced hq .addStateOrders
    (m.state ((m.enterBound (orderHooks prog) π (m.enter (orderHooks prog) π w)).currentState
      π)).stateOrdersIds (m.enterBound (orderHooks prog) π (m.enter (orderHooks prog) π w))
  rw [henter.current] at hsend
  have hafter := hsend.after henter
  rw [← henter.current] at hafter ⊢
  exact hafter

/-- **A change of state** announces what is attached exactly when it is in order. -/
theorem performStateChange_settled (m : Machine) (π : Addr) (above : List (BitVec 16)) (target : Nat)
    (w : World (Announcer υ)) (hne : w.currentState π ≠ target) :
    SettledAt m π above (m.performStateChange (orderHooks prog) π target w) ↔
      Change.Ok { machine := m, addr := π, above, target, world := w } := by
  have hleave := leave_announced hq m π w
  have harrive := arrive_announced hq m π
    ((m.leave (orderHooks prog) π w).setCurrentState π target)
  have hcur : ((m.leave (orderHooks prog) π w).setCurrentState π target).currentState π = target :=
    Function.update_self ..
  have huser : ((m.leave (orderHooks prog) π w).setCurrentState π target).user =
      (m.leave (orderHooks prog) π w).user := rfl
  rw [hcur] at harrive
  unfold Machine.performStateChange
  rw [if_neg hne]
  generalize m.arrive (orderHooks prog) π _ = v at harrive ⊢
  have htarget : v.currentState π = target := by rw [harrive.current, hcur]
  have hothers : ∀ ρ : Addr, π.length < ρ.length → v.currentState ρ = w.currentState ρ := by
    intro ρ hρ
    have hne' : ρ ≠ π := fun h => Nat.ne_of_gt hρ (congrArg List.length h)
    rw [harrive.current]
    exact (Function.update_of_ne hne' ..).trans (congrFun hleave.current ρ)
  obtain ⟨d, nested⟩ := m
  have hattached : Machine.attachedOrders (.mk d nested) π v =
      (Machine.state (.mk d nested) target).stateOrdersIds ++
        Nested.attachedOrders nested target 0 π w := by
    rw [Machine.attachedOrders, htarget, nestedOrders_congr nested target 0 π hothers]
  have hknown : ∀ id, available v.user.sent id =
      if w.user.informerSocket = true ∧ id ∈ (Machine.state (.mk d nested) target).stateOrdersIds then
        true
      else if w.user.informerSocket = true ∧
          id ∈ (Machine.state (.mk d nested) (w.currentState π)).stateOrdersIds then false
      else available w.user.sent id := by
    intro id
    rw [harrive.available, huser, hleave.informerSocket, hleave.available]
    rfl
  unfold SettledAt Change.Ok Change.others Change.entered Change.left
  rw [hattached]
  simp only [hknown, Machine.nested]
  by_cases hsocket : w.user.informerSocket = true
  · simp only [hsocket, true_and, if_true, List.mem_append]
    constructor
    · intro h id hid
      have := h id
      rw [if_neg hid] at this
      by_cases hleft : id ∈ (Machine.state (.mk d nested) (w.currentState π)).stateOrdersIds
      · rw [if_pos hleft] at this
        tauto
      · rw [if_neg hleft] at this
        tauto
    · intro h id
      by_cases hid : id ∈ (Machine.state (.mk d nested) target).stateOrdersIds
      · rw [if_pos hid]
        tauto
      · have := h id hid
        rw [if_neg hid]
        by_cases hleft : id ∈ (Machine.state (.mk d nested) (w.currentState π)).stateOrdersIds
        · rw [if_pos hleft]
          tauto
        · rw [if_neg hleft]
          tauto
  · simp only [hsocket, List.mem_append]
    exact forall_congr' fun id => by tauto

/-! ## Operations -/

theorem firstTrue_untouched : ∀ (l : List Transition) (w : World (Announcer υ)),
    Untouched w (firstTrue (orderHooks prog) l w).2
  | [], w => .refl w
  | t :: rest, w => by
    rw [firstTrue]
    split
    · exact hq.predicate t.predicate w
    · exact (hq.predicate t.predicate w).trans (firstTrue_untouched rest _)

omit hq in
theorem Untouched.settled {w v : World (Announcer υ)} (h : Untouched w v) (m : Machine) (π : Addr)
    (above : List (BitVec 16)) : SettledAt m π above v ↔ SettledAt m π above w := by
  unfold SettledAt
  rw [h.sent, machineOrders_congr m π fun ρ _ => congrFun h.current ρ]

theorem performStateChange_current (m : Machine) (π : Addr) (target : Nat)
    (w : World (Announcer υ)) {ρ : Addr} (hρ : ρ ≠ π) :
    (m.performStateChange (orderHooks prog) π target w).currentState ρ = w.currentState ρ := by
  unfold Machine.performStateChange
  split
  · rfl
  · rw [(arrive_announced hq m π _).current]
    exact (Function.update_of_ne hρ ..).trans (congrFun (leave_announced hq m π w).current ρ)

/-- What an operation leaves, given its last change of state. -/
def Outcome (settled : World (Announcer υ) → Prop) (last : Option (Change υ))
    (w v : World (Announcer υ)) : Prop :=
  match last with
  | some c => settled v ↔ c.Ok
  | none => Untouched w v

theorem takeTransition_outcome (m : Machine) (π : Addr) (above : List (BitVec 16))
    (w : World (Announcer υ)) :
    Outcome (SettledAt m π above) (takenChange (orderHooks prog) m π above w) w
        (m.takeTransition (orderHooks prog) π w) ∧
      ∀ ρ, ρ ≠ π → (m.takeTransition (orderHooks prog) π w).currentState ρ = w.currentState ρ := by
  have hguards := firstTrue_untouched hq (m.slice (w.currentState π)) w
  unfold Machine.takeTransition takenChange
  generalize firstTrue (orderHooks prog) (m.slice (w.currentState π)) w = r at hguards ⊢
  obtain ⟨target, v⟩ := r
  cases target with
  | none => exact ⟨hguards, fun ρ _ => congrFun hguards.current ρ⟩
  | some target =>
    refine ⟨?_, fun ρ hρ =>
      (performStateChange_current hq m π target v hρ).trans (congrFun hguards.current ρ)⟩
    show Outcome _ (if v.currentState π = target then none else some _) w
      (m.performStateChange (orderHooks prog) π target v)
    by_cases hsame : v.currentState π = target
    · rw [if_pos hsame]
      unfold Machine.performStateChange
      rw [if_pos hsame]
      exact hguards
    · rw [if_neg hsame]
      exact performStateChange_settled hq m π above target v hsame

mutual
theorem checkTransitions_outcome : ∀ (m : Machine) (π : Addr) (above : List (BitVec 16))
    (w : World (Announcer υ)),
    Outcome (SettledAt m π above) (Machine.lastChange (orderHooks prog) m π above w) w
        (m.checkTransitions (orderHooks prog) π w) ∧
      ∀ ρ : Addr, ρ.length < π.length →
        (m.checkTransitions (orderHooks prog) π w).currentState ρ = w.currentState ρ
  | .mk d nested, π, above, w => by
    rw [Machine.lastChange, Machine.checkTransitions]
    by_cases hstarted : (!w.calledStart π) = true
    · rw [if_pos hstarted, if_pos hstarted]
      have hpanic := hq.panic "Error: check_transitions called before StateMachine.start()" w
      exact ⟨hpanic, fun ρ _ => congrFun hpanic.current ρ⟩
    · rw [if_neg hstarted, if_neg hstarted]
      obtain ⟨htaken, hothers⟩ := takeTransition_outcome hq (.mk d nested) π above w
      dsimp only
      generalize Machine.takeTransition (orderHooks prog) (.mk d nested) π w = w' at htaken hothers ⊢
      obtain ⟨hnested, habove⟩ := nestedCheckTransitions_outcome nested (w'.currentState π) 0 π
        (above ++ (Machine.state (.mk d nested) (w'.currentState π)).stateOrdersIds) w'
      generalize Nested.checkTransitions (orderHooks prog) nested (w'.currentState π) 0 π w' = v
        at hnested habove ⊢
      refine ⟨?_, fun ρ hρ => ?_⟩
      · cases hlast : Nested.lastChange (orderHooks prog) nested (w'.currentState π) 0 π
          (above ++ (Machine.state (.mk d nested) (w'.currentState π)).stateOrdersIds) w' with
        | some c =>
          rw [hlast] at hnested
          refine Iff.trans ?_ hnested
          unfold SettledAt
          rw [Machine.attachedOrders, habove π (Nat.le_refl _)]
          simp only [List.append_assoc]
        | none =>
          rw [hlast] at hnested
          rw [Option.none_or]
          cases htook : takenChange (orderHooks prog) (.mk d nested) π above w with
          | some c =>
            rw [htook] at htaken
            exact (hnested.settled (.mk d nested) π above).trans htaken
          | none =>
            rw [htook] at htaken
            exact Untouched.trans htaken hnested
      · rw [habove ρ (Nat.le_of_lt hρ)]
        exact hothers ρ fun h => Nat.ne_of_lt hρ (congrArg List.length h)

theorem nestedCheckTransitions_outcome : ∀ (nested : Nested) (s j : Nat) (π : Addr)
    (above : List (BitVec 16)) (w : World (Announcer υ)),
    Outcome (fun v => ∀ id, available v.user.sent id = true ↔
          id ∈ above ++ Nested.attachedOrders nested s j π v)
        (Nested.lastChange (orderHooks prog) nested s j π above w) w
        (nested.checkTransitions (orderHooks prog) s j π w) ∧
      ∀ ρ : Addr, ρ.length ≤ π.length →
        (nested.checkTransitions (orderHooks prog) s j π w).currentState ρ = w.currentState ρ
  | .nil, _, _, _, _, w => ⟨.refl w, fun _ _ => rfl⟩
  | .cons state machine rest, s, j, π, above, w => by
    rw [Nested.lastChange, Nested.checkTransitions]
    by_cases hstate : state = s
    · rw [if_pos hstate, if_pos hstate]
      obtain ⟨houtcome, habove⟩ := checkTransitions_outcome machine (j :: π) above w
      refine ⟨?_, fun ρ hρ => habove ρ (Nat.lt_succ_of_le hρ)⟩
      simp only [Nested.attachedOrders, if_pos hstate]
      exact houtcome
    · rw [if_neg hstate, if_neg hstate]
      obtain ⟨houtcome, habove⟩ := nestedCheckTransitions_outcome rest s (j + 1) π above w
      refine ⟨?_, habove⟩
      simp only [Nested.attachedOrders, if_neg hstate]
      exact houtcome
end

omit hq in
theorem markStarted_kept : ∀ (nested : Nested) (π : Addr) (w : World (Announcer υ)),
    (nested.markStarted π w).currentState = w.currentState ∧
      (nested.markStarted π w).user.sent = w.user.sent
  | .nil, _, _ => ⟨rfl, rfl⟩
  | .cons _ _ _, _, _ => ⟨rfl, rfl⟩

mutual
/-- `start` enters states and announces nothing. -/
theorem start_kept : ∀ (m : Machine) (π : Addr) (w : World (Announcer υ)),
    (m.start (orderHooks prog) π w).currentState = w.currentState ∧
      (m.start (orderHooks prog) π w).user.sent = w.user.sent
  | .mk d nested, π, w => by
    have henter : Untouched (w.setCalledStart π)
        (Machine.enter (orderHooks prog) (.mk d nested) π (w.setCalledStart π)) :=
      enterState_untouched hq _ _ _ _
    rw [Machine.start]
    generalize Machine.enter (orderHooks prog) (.mk d nested) π (w.setCalledStart π) = v at henter ⊢
    obtain ⟨hcurrent, hsent⟩ := nestedStart_kept nested (v.currentState π) 0 π v
    generalize Nested.start (orderHooks prog) nested (v.currentState π) 0 π v = u at hcurrent hsent ⊢
    obtain ⟨hmark, hmarkSent⟩ := markStarted_kept nested π u
    exact ⟨hmark.trans (hcurrent.trans henter.current), hmarkSent.trans (hsent.trans henter.sent)⟩

theorem nestedStart_kept : ∀ (nested : Nested) (s j : Nat) (π : Addr) (w : World (Announcer υ)),
    (nested.start (orderHooks prog) s j π w).currentState = w.currentState ∧
      (nested.start (orderHooks prog) s j π w).user.sent = w.user.sent
  | .nil, _, _, _, _ => ⟨rfl, rfl⟩
  | .cons state machine rest, s, j, π, w => by
    rw [Nested.start]
    split
    · exact start_kept machine (j :: π) w
    · exact nestedStart_kept rest s (j + 1) π w
end

end quiet

/-! ## Runs -/

/-- A call on the top machine, with the world that it finds. -/
abbrev Label (υ : Type) := World (Announcer υ) × MachineOp

/-- Between two calls the machines stay as they are, and no state orders are sent. -/
def Step (h : Hooks (Announcer υ)) (m : Machine) (w : World (Announcer υ)) (l : Label υ)
    (w' : World (Announcer υ)) : Prop :=
  SameMachines w l.1 ∧ l.1.user.sent = w.user.sent ∧ w' = l.2.run h m l.1

/-- The last change of state that the call makes is in order; one that makes none finds
announced what is attached. -/
def OpOk (h : Hooks (Announcer υ)) (m : Machine) (l : Label υ) : Prop :=
  match lastChange h m l.1 l.2 with
  | some c => c.Ok
  | none => Settled m l.1

/-- A call announces what is attached exactly when it is in order. -/
theorem op_settled {prog : Callbacks υ} (hq : Quiet prog) (m : Machine) (l : Label υ) :
    Settled m (l.2.run (orderHooks prog) m l.1) ↔ OpOk (orderHooks prog) m l := by
  obtain ⟨w, op⟩ := l
  unfold OpOk
  cases op with
  | start =>
    obtain ⟨hcurrent, hsent⟩ := start_kept hq m [] w
    simp only [MachineOp.run, lastChange, Settled, SettledAt]
    rw [hsent, machineOrders_congr m [] fun ρ _ => congrFun hcurrent ρ]
  | checkTransitions =>
    have houtcome := (checkTransitions_outcome hq m [] [] w).1
    simp only [MachineOp.run, lastChange]
    generalize Machine.lastChange (orderHooks prog) m [] [] w = last at houtcome ⊢
    cases last with
    | some c => exact houtcome
    | none => exact houtcome.settled m [] []
  | forceChangeState state =>
    simp only [MachineOp.run, lastChange, Machine.forceChangeState]
    by_cases hsame : w.currentState [] = state
    · rw [if_pos hsame]
      unfold Machine.performStateChange
      rw [if_pos hsame]
    · rw [if_neg hsame]
      exact performStateChange_settled hq m [] [] state w hsame

/-- Callbacks that do nothing. -/
def silent : Callbacks Unit where
  action _ w := w
  predicate _ w := (false, w)
  panic _ w := w

theorem silent_quiet : Quiet silent :=
  ⟨fun _ => .refl, fun _ => .refl, fun _ => .refl⟩

/-- Every machine in state 0, nothing started, and a socket set. -/
def booted : World (Announcer Unit) where
  currentState _ := 0
  cyclicActions _ _ := []
  sched := Scheduler.Model.initial
  user := { informerSocket := true, program := () }

/-- A machine of two states with the given orders. -/
def twoStates (first second : List (BitVec 16)) : Machine :=
  .mk { states := [{ stateOrdersIds := first }, { stateOrdersIds := second }] } .nil

end StLib.StateMachine.StateOrders
