import StLib.StateMachine.Activity

/-! # The states entered are the active path

Over whole runs of `start`, `check_transitions` and `force_change_state` on the top
machine, with callbacks that leave the machines alone (`activity`). A state change
exits and enters the bound machine's current state and stops there, where `start`
goes on to the machines below; so a machine active two levels below the change is
left running, or is not entered (`nested_two_levels`). -/
namespace StLib.StateMachine.ActivePath

open StLib.Base.Runs
open StLib.Scheduler.Model StLib.Scheduler.Steps StLib.Scheduler.Invariant
open StLib.StateMachine.TimedActions StLib.StateMachine.Model StLib.StateMachine.Activity

variable {υ : Type}

/-! ## Nested machines through the binding they are reached by -/

theorem nested_activePath (w : World υ) (π : Addr) (s : Nat) : ∀ (nested : Nested) (j : Nat),
    nested.activePath s j π w = match nested.boundFrom s j with
      | some (k, n) => n.activePath (k :: π) w
      | none => []
  | .nil, _ => rfl
  | .cons state machine rest, j => by
    rw [Nested.activePath, Nested.boundFrom]
    split
    · rfl
    · exact nested_activePath w π s rest (j + 1)

/-- The states active when the machine at `π` is in state `s`. -/
def pathFrom (m : Machine) (π : Addr) (s : Nat) (w : World υ) : List (Addr × Nat) :=
  (π, s) :: match m.bound s with
    | some (j, n) => n.activePath (j :: π) w
    | none => []

theorem activePath_eq (m : Machine) (π : Addr) (w : World υ) :
    m.activePath π w = pathFrom m π (w.currentState π) w := by
  obtain ⟨d, nested⟩ := m
  rw [Machine.activePath, nested_activePath]
  rfl

mutual
/-- The path below `π` is read from the machines at `π` and below. -/
theorem activePath_congr {w w' : World υ} : ∀ (m : Machine) (π : Addr),
    (∀ ρ : Addr, π.length ≤ ρ.length → w'.currentState ρ = w.currentState ρ) →
    m.activePath π w' = m.activePath π w
  | .mk d nested, π, hc => by
    rw [Machine.activePath, Machine.activePath, hc π (Nat.le_refl _),
      nestedPath_congr nested _ 0 π fun ρ hρ => hc ρ (Nat.le_of_lt hρ)]

theorem nestedPath_congr {w w' : World υ} : ∀ (nested : Nested) (s j : Nat) (π : Addr),
    (∀ ρ : Addr, π.length < ρ.length → w'.currentState ρ = w.currentState ρ) →
    nested.activePath s j π w' = nested.activePath s j π w
  | .nil, _, _, _, _ => rfl
  | .cons state machine rest, s, j, π, hc => by
    rw [Nested.activePath, Nested.activePath, activePath_congr machine (j :: π) fun ρ hρ => hc ρ hρ,
      nestedPath_congr rest s (j + 1) π hc]
end

/-! ## A state change -/

/-- The machine bound to state `s`, if any, has nothing active below it. -/
def Leaf (m : Machine) (π : Addr) (s : Nat) (w : World υ) : Prop :=
  ∀ j n, m.bound s = some (j, n) → n.bound (w.currentState (j :: π)) = none

/-- A change of the machine at `π`, active below `pre`: neither the machine bound to
the state left nor the one bound to the target has a machine active below it, and
the cyclic actions of the new path fit. -/
def ChangeOk (F : Finset Slot) (m : Machine) (π : Addr) (pre : List (Addr × Nat)) (target : Nat)
    (w : World υ) : Prop :=
  w.currentState π ≠ target →
    Leaf m π (w.currentState π) w ∧ Leaf m π target w ∧ Fits F w (pre ++ pathFrom m π target w)

/-- The current state of the machine bound to `s`. -/
def boundState (m : Machine) (π : Addr) (s : Nat) (w : World υ) : List (Addr × Nat) :=
  match m.bound s with
  | some (j, _) => [(j :: π, w.currentState (j :: π))]
  | none => []

theorem pathFrom_leaf {m : Machine} {π : Addr} {s : Nat} {w : World υ} (h : Leaf m π s w) :
    pathFrom m π s w = (π, s) :: boundState m π s w := by
  unfold pathFrom boundState
  cases hb : m.bound s with
  | none => rfl
  | some p =>
    obtain ⟨j, n⟩ := p
    simp only [activePath_eq, pathFrom, h j n hb]

variable {F : Finset Slot} {w : World υ} {h : Hooks υ}

/-- The ancestors' addresses are shorter. -/
def Above (pre : List (Addr × Nat)) (π : Addr) : Prop := ∀ y ∈ pre, y.1.length < π.length

theorem Above.not_mem {pre : List (Addr × Nat)} {π : Addr} (h : Above pre π) (s : Nat) :
    (π, s) ∉ pre :=
  fun hm => Nat.lt_irrefl _ (h _ hm)

theorem Above.snoc {pre : List (Addr × Nat)} {π : Addr} (h : Above pre π) (s j : Nat) :
    Above (pre ++ [(π, s)]) (j :: π) := by
  intro y hy
  rcases List.mem_append.mp hy with hy | hy
  · exact Nat.lt_succ_of_lt (h y hy)
  · rw [List.mem_singleton.mp hy]
    exact Nat.lt_succ_self _

/-- Leaving the current state takes it and the state bound below off the list. -/
theorem leave_keeps (hi : Inert h) {m : Machine} {π : Addr} {pre : List (Addr × Nat)}
    (he : Entered F (pre ++ (π, w.currentState π) :: boundState m π (w.currentState π) w) w) :
    Entered F pre (m.leave h π w) ∧ Frame w (m.leave h π w) := by
  have he1 := he.perm List.perm_middle
  obtain ⟨hexit, hframe⟩ := he1.exit hi (m.state (w.currentState π))
  change Entered F _ (m.exit h π w) at hexit
  change Frame w (m.exit h π w) at hframe
  have key : Entered F pre (m.exitBound h π (m.exit h π w)) ∧
      Frame w (m.exitBound h π (m.exit h π w)) := by
    unfold Machine.exitBound
    unfold boundState at hexit
    rw [hframe.current]
    cases hb : m.bound (w.currentState π) with
    | none =>
      rw [hb] at hexit
      exact ⟨by simpa using hexit, hframe⟩
    | some p =>
      obtain ⟨j, n⟩ := p
      rw [hb] at hexit
      have hb' : Entered F ((j :: π, w.currentState (j :: π)) :: pre) (m.exit h π w) :=
        hexit.perm (List.perm_append_singleton _ _)
      rw [← hframe.current] at hb'
      obtain ⟨hexit', hframe'⟩ := hb'.exit hi (n.state ((m.exit h π w).currentState (j :: π)))
      exact ⟨hexit', hframe.trans hframe'⟩
  have hu := removeStateOrders_onlyUser hi m π (m.exitBound h π (m.exit h π w))
  exact ⟨key.1.onlyUser hu, key.2.trans hu.frame⟩

/-- Arriving at a state puts it and the state bound below on the list. -/
theorem arrive_keeps (hi : Inert h) {m : Machine} {π : Addr} {pre : List (Addr × Nat)}
    (habove : Above pre π) (he : Entered F pre w)
    (fits : Fits F w (pre ++ (π, w.currentState π) :: boundState m π (w.currentState π) w)) :
    Entered F (pre ++ (π, w.currentState π) :: boundState m π (w.currentState π) w)
      (m.arrive h π w) ∧ Frame w (m.arrive h π w) := by
  have fits1 : Fits F w (pre ++ [(π, w.currentState π)]) := by
    refine Fits.prefix (Q := boundState m π (w.currentState π) w) ?_
    simpa using fits
  obtain ⟨henter, hframe⟩ := he.enter hi (habove.not_mem _) fits1 (m.state (w.currentState π))
  change Entered F _ (m.enter h π w) at henter
  change Frame w (m.enter h π w) at hframe
  have key : Entered F (pre ++ (π, w.currentState π) :: boundState m π (w.currentState π) w)
      (m.enterBound h π (m.enter h π w)) ∧ Frame w (m.enterBound h π (m.enter h π w)) := by
    unfold Machine.enterBound
    unfold boundState at fits ⊢
    rw [hframe.current]
    cases hb : m.bound (w.currentState π) with
    | none => exact ⟨henter, hframe⟩
    | some p =>
      obtain ⟨j, n⟩ := p
      rw [hb] at fits
      have fits2 : Fits F (m.enter h π w) (pre ++ [(π, w.currentState π)] ++
          [(j :: π, (m.enter h π w).currentState (j :: π))]) := by
        rw [hframe.current]
        exact Fits.congr (by simpa using fits) hframe.actions
      obtain ⟨henter', hframe'⟩ := henter.enter hi ((habove.snoc _ j).not_mem _) fits2
        (n.state ((m.enter h π w).currentState (j :: π)))
      change Entered F _ (n.enter h (j :: π) (m.enter h π w)) at henter'
      rw [List.append_assoc, hframe.current] at henter'
      exact ⟨by simpa using henter', hframe.trans hframe'⟩
  have hu := refreshStateOrders_onlyUser hi m π (m.enterBound h π (m.enter h π w))
  exact ⟨key.1.onlyUser hu, key.2.trans hu.frame⟩

/-- What a step of the machine at `π` leaves alone. -/
structure SameAbove (π : Addr) (w w' : World υ) : Prop where
  current : ∀ ρ : Addr, ρ.length < π.length → w'.currentState ρ = w.currentState ρ
  started : w'.calledStart = w.calledStart

theorem OnlyUser.sameAbove {w w' : World υ} (hu : OnlyUser w w') (π : Addr) : SameAbove π w w' :=
  ⟨fun ρ _ => congrFun hu.frame.current ρ, hu.frame.started⟩

/-- **A state change** keeps the states entered on the active path. -/
theorem performStateChange_keeps (hi : Inert h) {m : Machine} {π : Addr}
    {pre : List (Addr × Nat)} {target : Nat} (habove : Above pre π)
    (he : Entered F (pre ++ m.activePath π w) w) (hok : ChangeOk F m π pre target w) :
    Entered F (pre ++ m.activePath π (m.performStateChange h π target w))
      (m.performStateChange h π target w) ∧
    SameAbove π w (m.performStateChange h π target w) := by
  unfold Machine.performStateChange
  split
  next => exact ⟨he, fun _ _ => rfl, rfl⟩
  next hne =>
    obtain ⟨hleave, harrive, fits⟩ := hok hne
    rw [activePath_eq, pathFrom_leaf hleave] at he
    rw [pathFrom_leaf harrive] at fits
    obtain ⟨hleft, hframe⟩ := leave_keeps hi he
    generalize m.leave h π w = v at hleft hframe ⊢
    -- between the halves the machine is in the target state
    have hcur : (v.setCurrentState π target).currentState π = target := Function.update_self ..
    have hothers : ∀ ρ, ρ ≠ π → (v.setCurrentState π target).currentState ρ = w.currentState ρ :=
      fun ρ hρ => (Function.update_of_ne hρ ..).trans (congrFun hframe.current ρ)
    have hmid : Entered F pre (v.setCurrentState π target) := hleft.congr rfl rfl rfl
    have hactions : SameActions w (v.setCurrentState π target) := hframe.actions
    have hstarted : (v.setCurrentState π target).calledStart = w.calledStart := hframe.started
    generalize v.setCurrentState π target = u at hcur hothers hmid hactions hstarted ⊢
    have hbound : boundState m π target u = boundState m π target w := by
      unfold boundState
      split
      next j _ _ => rw [hothers (j :: π) (by simp)]
      next => rfl
    have fits' : Fits F u (pre ++ (π, target) :: boundState m π target u) := by
      rw [hbound]
      exact fits.congr hactions
    rw [← hcur] at fits'
    obtain ⟨hend, hframe'⟩ := arrive_keeps hi habove hmid fits'
    rw [hcur, hbound] at hend
    have hlast : ∀ ρ, ρ ≠ π → (m.arrive h π u).currentState ρ =
        w.currentState ρ := fun ρ hρ => by rw [hframe'.current, hothers ρ hρ]
    refine ⟨?_, fun ρ hρ => hlast ρ fun e => by rw [e] at hρ; exact Nat.lt_irrefl _ hρ,
      hframe'.started.trans hstarted⟩
    have hleaf : Leaf m π target (m.arrive h π u) := by
      intro j n hb
      rw [hlast (j :: π) (by simp)]
      exact harrive j n hb
    have hpath : boundState m π target (m.arrive h π u) =
        boundState m π target w := by
      unfold boundState
      split
      next j _ _ => rw [hlast (j :: π) (by simp)]
      next => rfl
    rw [activePath_eq, hframe'.current, hcur, pathFrom_leaf hleaf, hpath]
    exact hend

/-! ## `check_transitions` -/

/-- The transition the machine at `π` takes, if any, is a change in order. -/
def TransitionOk (h : Hooks υ) (F : Finset Slot) (m : Machine) (π : Addr)
    (pre : List (Addr × Nat)) (w : World υ) : Prop :=
  ∀ target, (firstTrue h (m.slice (w.currentState π)) w).1 = some target →
    ChangeOk F m π pre target (firstTrue h (m.slice (w.currentState π)) w).2

mutual
/-- The transitions taken along the active path, from the machine at `π` down, are
changes in order. -/
def CheckOk (h : Hooks υ) (F : Finset Slot) : Machine → Addr → List (Addr × Nat) → World υ → Prop
  | .mk d nested, π, pre, w => w.calledStart π = true →
    let w' := Machine.takeTransition h (.mk d nested) π w
    TransitionOk h F (.mk d nested) π pre w ∧
      NestedCheckOk h F nested (w'.currentState π) 0 π (pre ++ [(π, w'.currentState π)]) w'

def NestedCheckOk (h : Hooks υ) (F : Finset Slot) : Nested → Nat → Nat → Addr →
    List (Addr × Nat) → World υ → Prop
  | .nil, _, _, _, _, _ => True
  | .cons state machine rest, s, j, π, pre, w =>
    if state = s then CheckOk h F machine (j :: π) pre w
    else NestedCheckOk h F rest s (j + 1) π pre w
end

theorem onlyUser_keeps {w w' : World υ} (hu : OnlyUser w w') {m : Machine} {π : Addr}
    {pre : List (Addr × Nat)} (he : Entered F (pre ++ m.activePath π w) w) :
    Entered F (pre ++ m.activePath π w') w' := by
  rw [activePath_congr (w := w) m π fun ρ _ => congrFun hu.frame.current ρ]
  exact he.onlyUser hu

theorem takeTransition_keeps (hi : Inert h) {m : Machine} {π : Addr} {pre : List (Addr × Nat)}
    (habove : Above pre π) (he : Entered F (pre ++ m.activePath π w) w)
    (hok : TransitionOk h F m π pre w) :
    Entered F (pre ++ m.activePath π (m.takeTransition h π w)) (m.takeTransition h π w) ∧
    SameAbove π w (m.takeTransition h π w) := by
  have hu := firstTrue_onlyUser hi (m.slice (w.currentState π)) w
  unfold TransitionOk at hok
  unfold Machine.takeTransition
  generalize firstTrue h (m.slice (w.currentState π)) w = r at hu hok
  obtain ⟨target, v⟩ := r
  have hv := onlyUser_keeps hu he
  cases target with
  | none => exact ⟨hv, OnlyUser.sameAbove hu π⟩
  | some target =>
    obtain ⟨hend, hsame⟩ := performStateChange_keeps hi habove hv (hok target rfl)
    exact ⟨hend, fun ρ hρ => (hsame.current ρ hρ).trans (congrFun hu.frame.current ρ),
      hsame.started.trans hu.frame.started⟩

mutual
/-- **`check_transitions`** keeps the states entered on the active path. -/
theorem checkTransitions_keeps (hi : Inert h) : ∀ (m : Machine) (π : Addr)
    (pre : List (Addr × Nat)) (w : World υ), Above pre π →
    Entered F (pre ++ m.activePath π w) w → CheckOk h F m π pre w →
    Entered F (pre ++ m.activePath π (m.checkTransitions h π w)) (m.checkTransitions h π w) ∧
      SameAbove π w (m.checkTransitions h π w)
  | .mk d nested, π, pre, w, habove, he, hok => by
    rw [Machine.checkTransitions]
    split
    next =>
      have hu := hi.panic "Error: check_transitions called before StateMachine.start()" w
      exact ⟨onlyUser_keeps hu he, OnlyUser.sameAbove hu π⟩
    next hstarted =>
      rw [CheckOk] at hok
      obtain ⟨htrans, hnested⟩ := hok (by simpa using hstarted)
      obtain ⟨htake, hsame⟩ := takeTransition_keeps hi habove he htrans
      generalize Machine.takeTransition h (.mk d nested) π w = v at htake hsame hnested ⊢
      rw [Machine.activePath, List.append_cons] at htake
      have hbelow : ∀ y ∈ pre ++ [(π, v.currentState π)], y.1.length ≤ π.length := by
        intro y hy
        rcases List.mem_append.mp hy with hy | hy
        · exact Nat.le_of_lt (habove y hy)
        · rw [List.mem_singleton.mp hy]
      obtain ⟨hend, hkeep, hstart⟩ := nestedCheckTransitions_keeps hi nested (v.currentState π) 0 π
        (pre ++ [(π, v.currentState π)]) v hbelow htake hnested
      refine ⟨?_, fun ρ hρ => (hkeep ρ (Nat.le_of_lt hρ)).trans (hsame.current ρ hρ),
        hstart.trans hsame.started⟩
      rw [Machine.activePath, List.append_cons, hkeep π (Nat.le_refl _)]
      exact hend

theorem nestedCheckTransitions_keeps (hi : Inert h) : ∀ (nested : Nested) (s j : Nat) (π : Addr)
    (pre : List (Addr × Nat)) (w : World υ), (∀ y ∈ pre, y.1.length ≤ π.length) →
    Entered F (pre ++ nested.activePath s j π w) w → NestedCheckOk h F nested s j π pre w →
    Entered F (pre ++ nested.activePath s j π (nested.checkTransitions h s j π w))
      (nested.checkTransitions h s j π w) ∧
      (∀ ρ : Addr, ρ.length ≤ π.length →
        (nested.checkTransitions h s j π w).currentState ρ = w.currentState ρ) ∧
      (nested.checkTransitions h s j π w).calledStart = w.calledStart
  | .nil, s, j, π, pre, w, _, he, _ => by
    rw [Nested.checkTransitions]
    exact ⟨he, fun _ _ => rfl, rfl⟩
  | .cons state machine rest, s, j, π, pre, w, hbelow, he, hok => by
    rw [Nested.checkTransitions]
    rw [NestedCheckOk] at hok
    simp only [Nested.activePath] at he ⊢
    split
    next hs =>
      simp only [if_pos hs] at he hok ⊢
      obtain ⟨hend, hkeep⟩ := checkTransitions_keeps hi machine (j :: π) pre w
        (fun y hy => Nat.lt_succ_of_le (hbelow y hy)) he hok
      exact ⟨hend, fun ρ hρ => hkeep.current ρ (Nat.lt_succ_of_le hρ), hkeep.started⟩
    next hs =>
      simp only [if_neg hs] at he hok ⊢
      exact nestedCheckTransitions_keeps hi rest s (j + 1) π pre w hbelow he hok
end

/-! ## `start` -/

/-- What `start` leaves alone: it marks machines at depth `n` and below. -/
structure StartFrame (n : Nat) (w w' : World υ) : Prop where
  actions : SameActions w w'
  current : w'.currentState = w.currentState
  started : ∀ ρ : Addr, ρ.length < n → w'.calledStart ρ = w.calledStart ρ

mutual
/-- **`start`** enters the active path. -/
theorem start_keeps (hi : Inert h) : ∀ (m : Machine) (π : Addr) (pre : List (Addr × Nat))
    (w : World υ), Above pre π → Entered F pre w → Fits F w (pre ++ m.activePath π w) →
    Entered F (pre ++ m.activePath π w) (m.start h π w) ∧ StartFrame π.length w (m.start h π w) ∧
      (m.start h π w).calledStart π = true
  | .mk d nested, π, pre, w, habove, he, fits => by
    rw [Machine.start]
    rw [Machine.activePath, List.append_cons] at fits ⊢
    have he' : Entered F pre (w.setCalledStart π) := he.congr rfl rfl rfl
    obtain ⟨henter, hframe⟩ := he'.enter hi (habove.not_mem _) fits.prefix
      ((Machine.mk d nested).state (w.currentState π))
    change Entered F _ (Machine.enter h (.mk d nested) π (w.setCalledStart π)) at henter
    change Frame _ (Machine.enter h (.mk d nested) π (w.setCalledStart π)) at hframe
    generalize Machine.enter h (.mk d nested) π (w.setCalledStart π) = v at henter hframe
    have hcur : v.currentState = w.currentState := hframe.current
    have hactions : SameActions w v := hframe.actions
    have hmine : v.calledStart π = true := by
      rw [hframe.started]
      exact Function.update_self ..
    have habovemine : ∀ ρ : Addr, ρ.length < π.length → v.calledStart ρ = w.calledStart ρ := by
      intro ρ hρ
      rw [hframe.started]
      exact Function.update_of_ne (fun e => Nat.lt_irrefl _ (e ▸ hρ)) ..
    have hbelow : ∀ y ∈ pre ++ [(π, w.currentState π)], y.1.length ≤ π.length := by
      intro y hy
      rcases List.mem_append.mp hy with hy | hy
      · exact Nat.le_of_lt (habove y hy)
      · rw [List.mem_singleton.mp hy]
    have hpath : nested.activePath (w.currentState π) 0 π v =
        nested.activePath (w.currentState π) 0 π w :=
      nestedPath_congr nested _ 0 π fun ρ _ => congrFun hcur ρ
    obtain ⟨hend, hkeep⟩ := nestedStart_keeps hi nested (w.currentState π) 0 π _ v hbelow
      henter (by rw [hpath]; exact fits.congr hactions)
    rw [hpath] at hend
    rw [← hcur] at hend hkeep ⊢
    generalize nested.start h (v.currentState π) 0 π v = u at hend hkeep
    -- the mark of the first nested machine
    have hmark : Entered F (pre ++ [(π, v.currentState π)] ++
          nested.activePath (v.currentState π) 0 π w) (nested.markStarted π u) ∧
        StartFrame (π.length + 1) u (nested.markStarted π u) := by
      cases nested with
      | nil => exact ⟨hend, .refl u, rfl, fun _ _ => rfl⟩
      | cons =>
        exact ⟨hend.congr rfl rfl rfl, .refl u, rfl, fun ρ hρ =>
          Function.update_of_ne (fun e => by rw [e] at hρ; exact Nat.lt_irrefl _ hρ) ..⟩
    obtain ⟨hlast, hmarked⟩ := hmark
    have hsince : ∀ ρ : Addr, ρ.length ≤ π.length →
        (nested.markStarted π u).calledStart ρ = v.calledStart ρ := fun ρ hρ =>
      (hmarked.started ρ (Nat.lt_succ_of_le hρ)).trans (hkeep.started ρ (Nat.lt_succ_of_le hρ))
    refine ⟨hlast, ⟨hactions.trans (hkeep.actions.trans hmarked.actions), ?_, ?_⟩, ?_⟩
    · exact hmarked.current.trans (hkeep.current.trans hcur)
    · exact fun ρ hρ => (hsince ρ (Nat.le_of_lt hρ)).trans (habovemine ρ hρ)
    · rw [hsince π (Nat.le_refl _), hmine]

theorem nestedStart_keeps (hi : Inert h) : ∀ (nested : Nested) (s j : Nat) (π : Addr)
    (pre : List (Addr × Nat)) (w : World υ), (∀ y ∈ pre, y.1.length ≤ π.length) →
    Entered F pre w → Fits F w (pre ++ nested.activePath s j π w) →
    Entered F (pre ++ nested.activePath s j π w) (nested.start h s j π w) ∧
      StartFrame (π.length + 1) w (nested.start h s j π w)
  | .nil, s, j, π, pre, w, _, he, _ => by
    rw [Nested.start, Nested.activePath, List.append_nil]
    exact ⟨he, .refl w, rfl, fun _ _ => rfl⟩
  | .cons state machine rest, s, j, π, pre, w, hbelow, he, fits => by
    rw [Nested.start]
    rw [Nested.activePath] at fits ⊢
    split
    next hs =>
      rw [if_pos hs] at fits
      obtain ⟨hend, hkeep, -⟩ := start_keeps hi machine (j :: π) pre w
        (fun y hy => Nat.lt_succ_of_le (hbelow y hy)) he fits
      exact ⟨hend, hkeep⟩
    next hs =>
      rw [if_neg hs] at fits
      exact nestedStart_keeps hi rest s (j + 1) π pre w hbelow he fits
end

end StLib.StateMachine.ActivePath
