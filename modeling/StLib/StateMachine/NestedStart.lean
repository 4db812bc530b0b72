import StLib.StateMachine.Rules

/-! # The machines that a start covers

`start` starts the machine bound to the initial state, and marks the machine bound
first, whatever it is bound to. What it leaves out is found by `check_transitions`,
which reports a machine that is not marked (`checkPanics`). A machine is `Covered` when
none that its runs can reach is left out. -/
namespace StLib.StateMachine.NestedStart

open StLib.Scheduler.Model StLib.StateMachine.Model StLib.StateMachine.Rules

variable {υ : Type}

/-! ## Callbacks that call no machine -/

/-- The machines of `v` are in the states of `w`, and the same ones are marked. -/
structure SameMachines (w v : World υ) : Prop where
  current : v.currentState = w.currentState
  started : v.calledStart = w.calledStart

theorem SameMachines.refl (w : World υ) : SameMachines w w := ⟨rfl, rfl⟩

theorem SameMachines.trans {w v u : World υ} (h : SameMachines w v) (h' : SameMachines v u) :
    SameMachines w u :=
  ⟨h'.current.trans h.current, h'.started.trans h.started⟩

theorem SameMachines.setCurrentState {w v : World υ} (h : SameMachines w v) (π : Addr) (s : Nat) :
    SameMachines (w.setCurrentState π s) (v.setCurrentState π s) :=
  ⟨by rw [World.setCurrentState, World.setCurrentState, h.current], h.started⟩

structure Outside (h : Hooks υ) : Prop where
  action : ∀ c w, SameMachines w (h.action c w)
  predicate : ∀ g w, SameMachines w (h.predicate g w).2
  panic : ∀ msg w, SameMachines w (h.panic msg w)
  addStateOrders : ∀ ids w, SameMachines w (h.addStateOrders ids w)
  removeStateOrders : ∀ ids w, SameMachines w (h.removeStateOrders ids w)

section outside
variable {h : Hooks υ} (ho : Outside h)
include ho

theorem keeps_same (w : World υ) : KeepsStates h {} (fun _ => True) fun _ => SameMachines w where
  weaken _ _ hv := hv
  action _ c v _ _ hv := hv.trans (ho.action c v)
  entered _ _ _ hv := ⟨hv.current, hv.started⟩
  register _ _ _ _ hv := registerAllTimedActions_rule (P := SameMachines w)
    (fun _ _ => ⟨hv.current, hv.started⟩) fun msg v hv => hv.trans (ho.panic msg v)
  unregister _ _ _ hv := ⟨hv.current, hv.started⟩
  addStateOrders ids v hv := hv.trans (ho.addStateOrders ids v)
  removeStateOrders ids v hv := hv.trans (ho.removeStateOrders ids v)

theorem enter_same (m : Machine) (π : Addr) (w : World υ) : SameMachines w (m.enter h π w) :=
  enterState_plain (keeps_same ho w) _ _ _ (.refl w)

theorem performStateChange_same (m : Machine) (π : Addr) (target : Nat) (w : World υ) :
    SameMachines (w.setCurrentState π target) (m.performStateChange h π target w) := by
  unfold Machine.performStateChange
  split
  next he =>
    refine ⟨?_, rfl⟩
    show w.currentState = Function.update w.currentState π target
    rw [← he, Function.update_eq_self]
  next =>
    have hleft := leave_plain (keeps_same ho w) m π (.refl w)
    exact arrive_plain (keeps_same ho _) m π (hleft.setCurrentState π target)

theorem firstTrue_same : ∀ (l : List Transition) (w : World υ), SameMachines w (firstTrue h l w).2
  | [], w => .refl w
  | t :: rest, w => by
    rw [firstTrue]
    split
    · exact ho.predicate _ w
    · exact (ho.predicate _ w).trans (firstTrue_same rest _)

/-- `check_transitions` marks no machine. -/
theorem checkTransitions_started (m : Machine) (π : Addr) (w : World υ) :
    (m.checkTransitions h π w).calledStart = w.calledStart := by
  have hk : KeepsPlain h fun v => v.calledStart = w.calledStart :=
    { weaken := fun _ _ hv => hv
      action := fun _ c v _ _ hv => (ho.action c v).started.trans hv
      entered := fun _ _ _ hv => hv
      register := fun _ _ _ _ hv => registerAllTimedActions_rule
        (P := fun v => v.calledStart = w.calledStart) (fun _ _ => hv)
        fun msg v hv => (ho.panic msg v).started.trans hv
      unregister := fun _ _ _ hv => hv
      addStateOrders := fun ids v hv => (ho.addStateOrders ids v).started.trans hv
      removeStateOrders := fun ids v hv => (ho.removeStateOrders ids v).started.trans hv
      predicate := fun g v hv => (ho.predicate g v).started.trans hv
      panic := fun msg v hv => (ho.panic msg v).started.trans hv
      current := fun _ _ _ hv => hv }
  exact checkTransitions_plain hk m π rfl

end outside

/-! ## What a start marks -/

def firstMark (π : Addr) : Nested → List Addr
  | .nil => []
  | .cons _ _ _ => [0 :: π]

mutual
/-- The machines that a start marks, with the machines in the states `cur`. -/
def marks (cur : Addr → Nat) : Machine → Addr → List Addr
  | .mk _ nested, π => π :: (nestedMarks cur nested (cur π) 0 π ++ firstMark π nested)

def nestedMarks (cur : Addr → Nat) : Nested → Nat → Nat → Addr → List Addr
  | .nil, _, _, _ => []
  | .cons state machine rest, s, j, π =>
    if state = s then marks cur machine (j :: π) else nestedMarks cur rest s (j + 1) π
end

/-- The marks of the machine bound to state `s`. -/
def boundMarks (cur : Addr → Nat) (m : Machine) (π : Addr) (s : Nat) : List Addr :=
  match m.bound s with
  | some (j, n) => marks cur n (j :: π)
  | none => []

theorem nestedMarks_eq (cur : Addr → Nat) (s : Nat) (π : Addr) : ∀ (nested : Nested) (j : Nat),
    nestedMarks cur nested s j π = match nested.boundFrom s j with
      | some (k, n) => marks cur n (k :: π)
      | none => []
  | .nil, _ => by rw [nestedMarks, Nested.boundFrom]
  | .cons state machine rest, j => by
    rw [nestedMarks, Nested.boundFrom]
    split
    · rfl
    · exact nestedMarks_eq cur s π rest (j + 1)

theorem marks_eq (cur : Addr → Nat) (m : Machine) (π : Addr) :
    marks cur m π =
      π :: (boundMarks cur m π (cur π) ++ firstMark π m.nested) := by
  obtain ⟨d, nested⟩ := m
  rw [marks, nestedMarks_eq]
  rfl

theorem mem_marks_self (cur : Addr → Nat) (m : Machine) (π : Addr) : π ∈ marks cur m π := by
  rw [marks_eq]
  exact List.mem_cons_self

theorem mem_marks_bound {cur : Addr → Nat} {m n : Machine} {π ρ : Addr} {j : Nat}
    (hb : m.bound (cur π) = some (j, n)) (h : ρ ∈ marks cur n (j :: π)) :
    ρ ∈ marks cur m π := by
  rw [marks_eq]
  refine List.mem_cons_of_mem _ (List.mem_append_left _ ?_)
  unfold boundMarks
  rw [hb]
  exact h

theorem mem_marks_first {cur : Addr → Nat} {m n : Machine} {π : Addr} {s j : Nat}
    (hb : m.bound s = some (j, n)) : 0 :: π ∈ marks cur m π := by
  rw [marks_eq]
  refine List.mem_cons_of_mem _ (List.mem_append_right _ ?_)
  unfold Machine.bound at hb
  cases hn : m.nested with
  | nil =>
    rw [hn] at hb
    cases hb
  | cons => exact List.mem_cons_self

/-! ### Bindings -/

theorem boundFrom_index {s : Nat} : ∀ {nested : Nested} {i j : Nat} {n : Machine},
    nested.boundFrom s i = some (j, n) → i ≤ j
  | .nil, _, _, _, h => by cases h
  | .cons state machine rest, i, j, n, h => by
    rw [Nested.boundFrom] at h
    split at h
    · cases h
      exact Nat.le_refl _
    · exact Nat.le_of_succ_le (boundFrom_index h)

/-- A binding is bound to one state. -/
theorem boundFrom_state {s s' : Nat} : ∀ {nested : Nested} {i j : Nat} {n n' : Machine},
    nested.boundFrom s i = some (j, n) → nested.boundFrom s' i = some (j, n') → s = s' ∧ n = n'
  | .nil, _, _, _, _, h, _ => by cases h
  | .cons state machine rest, i, j, n, n', h, h' => by
    rw [Nested.boundFrom] at h h'
    split at h
    next hs =>
      cases h
      split at h'
      next hs' =>
        cases h'
        exact ⟨hs.symm.trans hs', rfl⟩
      next => exact absurd (boundFrom_index h') (Nat.not_succ_le_self _)
    next =>
      split at h'
      next =>
        cases h'
        exact absurd (boundFrom_index h) (Nat.not_succ_le_self _)
      next => exact boundFrom_state h h'

theorem boundFrom_sizeOf {s : Nat} : ∀ {nested : Nested} {i j : Nat} {n : Machine},
    nested.boundFrom s i = some (j, n) → sizeOf n < sizeOf nested
  | .nil, _, _, _, h => by cases h
  | .cons state machine rest, i, j, n, h => by
    rw [Nested.boundFrom] at h
    split at h
    · cases h
      simp only [Nested.cons.sizeOf_spec]
      omega
    · have := boundFrom_sizeOf h
      simp only [Nested.cons.sizeOf_spec]
      omega

theorem bound_sizeOf {m n : Machine} {s j : Nat} (hb : m.bound s = some (j, n)) :
    sizeOf n < sizeOf m := by
  obtain ⟨d, nested⟩ := m
  have := boundFrom_sizeOf hb
  simp only [Machine.mk.sizeOf_spec]
  change sizeOf n < sizeOf nested at this
  omega

/-- The marks of a machine are below it. -/
theorem marks_suffix {cur : Addr → Nat} (m : Machine) {π ρ : Addr}
    (h : ρ ∈ marks cur m π) : π <:+ ρ := by
  rw [marks_eq] at h
  rcases List.mem_cons.mp h with rfl | h
  · exact List.suffix_refl _
  rcases List.mem_append.mp h with h | h
  · unfold boundMarks at h
    split at h
    next j n hb =>
      have := bound_sizeOf hb
      exact (List.suffix_cons j π).trans (marks_suffix n h)
    next => exact absurd h List.not_mem_nil
  · cases hn : m.nested with
    | nil =>
      rw [hn] at h
      exact absurd h List.not_mem_nil
    | cons =>
      rw [hn] at h
      rw [List.mem_singleton.mp h]
      exact List.suffix_cons 0 π
termination_by sizeOf m

/-! ### The start -/

theorem update_true_iff {f : Addr → Bool} {π ρ : Addr} :
    Function.update f π true ρ = true ↔ f ρ = true ∨ ρ = π := by
  rcases eq_or_ne ρ π with rfl | hne
  · simp
  · rw [Function.update_of_ne hne]
    exact (or_iff_left hne).symm

theorem markStarted_marks (nested : Nested) (π : Addr) (w : World υ) :
    (nested.markStarted π w).currentState = w.currentState ∧
      ∀ ρ, (nested.markStarted π w).calledStart ρ = true ↔
        w.calledStart ρ = true ∨ ρ ∈ firstMark π nested := by
  cases nested with
  | nil => exact ⟨rfl, fun ρ => (or_iff_left List.not_mem_nil).symm⟩
  | cons => exact ⟨rfl, fun ρ => update_true_iff.trans (or_congr_right List.mem_singleton.symm)⟩

/-- Start the machine bound to the current state. -/
def startBound (h : Hooks υ) (m : Machine) (π : Addr) (w : World υ) : World υ :=
  match m.bound (w.currentState π) with
  | some (j, n) => n.start h (j :: π) w
  | none => w

section start
variable {h : Hooks υ} (ho : Outside h)
include ho

/-- **A start** marks its marks, and moves no machine. -/
theorem start_marks (m : Machine) (π : Addr) (w : World υ) :
    (m.start h π w).currentState = w.currentState ∧
      ∀ ρ, (m.start h π w).calledStart ρ = true ↔
        w.calledStart ρ = true ∨ ρ ∈ marks w.currentState m π := by
  obtain ⟨hcur, hst⟩ := enter_same ho m π (w.setCalledStart π)
  change _ = w.currentState at hcur
  have henter : ∀ ρ, (m.enter h π (w.setCalledStart π)).calledStart ρ = true ↔
      w.calledStart ρ = true ∨ ρ = π := fun ρ => by
    rw [hst]
    exact update_true_iff
  have hbound : (startBound h m π (m.enter h π (w.setCalledStart π))).currentState =
        w.currentState ∧
      ∀ ρ, (startBound h m π (m.enter h π (w.setCalledStart π))).calledStart ρ = true ↔
        (w.calledStart ρ = true ∨ ρ = π) ∨ ρ ∈ boundMarks w.currentState m π (w.currentState π) := by
    unfold startBound boundMarks
    rw [hcur]
    cases hb : m.bound (w.currentState π) with
    | none => exact ⟨hcur, fun ρ => (henter ρ).trans (or_iff_left List.not_mem_nil).symm⟩
    | some p =>
      obtain ⟨j, n⟩ := p
      have := bound_sizeOf hb
      obtain ⟨hcn, hsn⟩ := start_marks n (j :: π) (m.enter h π (w.setCalledStart π))
      rw [hcur] at hsn
      exact ⟨hcn.trans hcur, fun ρ => (hsn ρ).trans (or_congr_left (henter ρ))⟩
  obtain ⟨hcm, hsm⟩ := markStarted_marks m.nested π
    (startBound h m π (m.enter h π (w.setCalledStart π)))
  rw [start_eq, marks_eq]
  refine ⟨hcm.trans hbound.1, fun ρ => (hsm ρ).trans ?_⟩
  rw [hbound.2, List.mem_cons, List.mem_append, or_assoc, or_assoc]
termination_by sizeOf m

end start

/-! ## Covered machines -/

def Follows (m : Machine) (s s' : Nat) : Prop := ∃ t ∈ m.slice s, t.target = s'

/-- The states that a machine gets to by its transitions. -/
def Reaches (m : Machine) : Nat → Nat → Prop := Relation.ReflTransGen (Follows m)

/-- From state `s` the machine gets to no state with a machine bound to it. -/
def Alone (m : Machine) (s : Nat) : Prop := ∀ s', Reaches m s s' → m.bound s' = none

/-- A machine that is started, in the states `cur`, and then is in states of `R`: the
machine bound to its initial state is covered, and one bound to another state is bound
first and has none bound to a state it gets to. -/
inductive Covered (cur : Addr → Nat) : Machine → Addr → (Nat → Prop) → Prop
  | mk {m : Machine} {π : Addr} {R : Nat → Prop}
      (other : ∀ s, R s → s ≠ cur π → ∀ j n, m.bound s = some (j, n) →
        j = 0 ∧ Alone n (cur (j :: π)))
      (initial : ∀ j n, m.bound (cur π) = some (j, n) →
        Covered cur n (j :: π) (Reaches n (cur (j :: π)))) : Covered cur m π R

mutual
/-- `check_transitions` reaches the `PANIC` of a machine that has not been started. -/
def checkPanics (h : Hooks υ) : Machine → Addr → World υ → Prop
  | .mk d nested, π, w =>
    if !w.calledStart π then True
    else
      let w := Machine.takeTransition h (.mk d nested) π w
      nestedCheckPanics h nested (w.currentState π) 0 π w

def nestedCheckPanics (h : Hooks υ) : Nested → Nat → Nat → Addr → World υ → Prop
  | .nil, _, _, _, _ => False
  | .cons state machine rest, s, j, π, w =>
    if state = s then checkPanics h machine (j :: π) w
    else nestedCheckPanics h rest s (j + 1) π w
end

theorem nestedCheckPanics_iff (h : Hooks υ) (s : Nat) (π : Addr) (w : World υ) :
    ∀ (nested : Nested) (j : Nat), nestedCheckPanics h nested s j π w ↔
      ∃ k n, nested.boundFrom s j = some (k, n) ∧ checkPanics h n (k :: π) w
  | .nil, _ => by simp [nestedCheckPanics, Nested.boundFrom]
  | .cons state machine rest, j => by
    rw [nestedCheckPanics, Nested.boundFrom]
    split
    · refine ⟨fun hp => ⟨j, machine, rfl, hp⟩, ?_⟩
      rintro ⟨k, n, hb, hp⟩
      cases hb
      exact hp
    · exact nestedCheckPanics_iff h s π w rest (j + 1)

theorem checkPanics_iff (h : Hooks υ) (m : Machine) (π : Addr) {w : World υ}
    (hs : w.calledStart π = true) : checkPanics h m π w ↔
      ∃ j n, m.bound ((m.takeTransition h π w).currentState π) = some (j, n) ∧
        checkPanics h n (j :: π) (m.takeTransition h π w) := by
  obtain ⟨d, nested⟩ := m
  rw [checkPanics, if_neg (by rw [hs]; nofun), nestedCheckPanics_iff]
  rfl

theorem started_of_quiet {h : Hooks υ} {m : Machine} {π : Addr} {w : World υ}
    (hq : ¬ checkPanics h m π w) : w.calledStart π = true := by
  obtain ⟨d, nested⟩ := m
  by_contra hs
  rw [checkPanics, if_pos (by simpa using hs)] at hq
  exact hq trivial

/-! ## What the steps do to the machines -/

theorem firstTrue_target {h : Hooks υ} {target : Nat} : ∀ {l : List Transition} {w : World υ},
    (firstTrue h l w).1 = some target → ∃ t ∈ l, t.target = target
  | [], _, he => by cases he
  | t :: rest, w, he => by
    rw [firstTrue] at he
    split at he
    · cases he
      exact ⟨t, List.mem_cons_self, rfl⟩
    · obtain ⟨t', ht', hx⟩ := firstTrue_target he
      exact ⟨t', List.mem_cons_of_mem _ ht', hx⟩

/-- `v` is `w` with the machine at `π` in the state `s`. -/
def MovedTo (π : Addr) (s : Nat) (w v : World υ) : Prop := SameMachines (w.setCurrentState π s) v

theorem MovedTo.self {π : Addr} {s : Nat} {w v : World υ} (h : MovedTo π s w v) :
    v.currentState π = s := by
  rw [h.current]
  exact Function.update_self ..

theorem MovedTo.other {π ρ : Addr} {s : Nat} {w v : World υ} (h : MovedTo π s w v) (hρ : ρ ≠ π) :
    v.currentState ρ = w.currentState ρ := by
  rw [h.current]
  exact Function.update_of_ne hρ ..

theorem MovedTo.trans {π : Addr} {s s' : Nat} {w v u : World υ} (h : MovedTo π s w v)
    (h' : MovedTo π s' v u) : MovedTo π s' w u := by
  refine ⟨h'.current.trans ?_, h'.started.trans h.started⟩
  show Function.update v.currentState π s' = Function.update w.currentState π s'
  rw [h.current]
  exact Function.update_idem ..

theorem SameMachines.movedTo {π : Addr} {w v : World υ} (h : SameMachines w v) :
    MovedTo π (w.currentState π) w v :=
  ⟨h.current.trans (Function.update_eq_self π w.currentState).symm, h.started⟩

section steps
variable {h : Hooks υ} (ho : Outside h)
include ho

/-- A transition is one of the current state's. -/
theorem takeTransition_moves (m : Machine) (π : Addr) (w : World υ) :
    ∃ s, Reaches m (w.currentState π) s ∧ MovedTo π s w (m.takeTransition h π w) := by
  have hsame := firstTrue_same ho (m.slice (w.currentState π)) w
  unfold Machine.takeTransition
  dsimp only
  cases ht : (firstTrue h (m.slice (w.currentState π)) w).1 with
  | none => exact ⟨_, .refl, hsame.movedTo⟩
  | some target =>
    have hchange := performStateChange_same ho m π target
      (firstTrue h (m.slice (w.currentState π)) w).2
    exact ⟨target, .single (firstTrue_target ht), (hsame.setCurrentState π target).trans hchange⟩

end steps

/-! ## Machines in a tree -/

/-- The machine `n`, at `ρ`, is nested in `m`, at `π`. -/
inductive Below : Machine → Addr → Machine → Addr → Prop
  | bound {m n : Machine} {π : Addr} {s j : Nat} (h : m.bound s = some (j, n)) : Below m π n (j :: π)
  | deeper {m n k : Machine} {π ρ : Addr} {s j : Nat} (h : m.bound s = some (j, n))
      (below : Below n (j :: π) k ρ) : Below m π k ρ

theorem Below.suffix {m n : Machine} {π ρ : Addr} (h : Below m π n ρ) : ∃ j, j :: π <:+ ρ := by
  induction h with
  | bound => exact ⟨_, List.suffix_refl _⟩
  | deeper _ _ ih =>
    obtain ⟨j, hj⟩ := ih
    exact ⟨_, (List.suffix_cons j _).trans hj⟩

theorem Below.irrefl {m n : Machine} {π : Addr} (h : Below m π n π) : False := by
  obtain ⟨j, hj⟩ := h.suffix
  exact absurd hj.length_le (Nat.not_succ_le_self _)

theorem Below.snoc {m n k : Machine} {π ρ : Addr} {s j : Nat} (h : Below m π n ρ)
    (hb : n.bound s = some (j, k)) : Below m π k (j :: ρ) := by
  induction h with
  | bound h => exact .deeper h (.bound hb)
  | deeper h _ ih => exact .deeper h (ih hb)

theorem suffix_cons_inj {i j : Nat} {π ρ : Addr} (h : i :: π <:+ ρ) (h' : j :: π <:+ ρ) : i = j :=
  (List.cons.inj ((List.suffix_of_suffix_length_le h h' (Nat.le_refl _)).eq_of_length rfl)).1

/-- An address has one machine. -/
theorem Below.unique {m n n' : Machine} {π ρ : Addr} (h : Below m π n ρ) (h' : Below m π n' ρ) :
    n = n' := by
  induction h with
  | bound hb =>
    cases h' with
    | bound hb' => exact (boundFrom_state hb hb').2
    | deeper _ below =>
      obtain ⟨i, hi⟩ := below.suffix
      exact absurd hi.length_le (Nat.not_succ_le_self _)
  | deeper hb below ih =>
    cases h' with
    | bound hb' =>
      obtain ⟨i, hi⟩ := below.suffix
      exact absurd hi.length_le (Nat.not_succ_le_self _)
    | deeper hb' below' =>
      obtain ⟨i, hi⟩ := below.suffix
      obtain ⟨i', hi'⟩ := below'.suffix
      obtain rfl := suffix_cons_inj ((List.suffix_cons i _).trans hi)
        ((List.suffix_cons i' _).trans hi')
      obtain ⟨-, rfl⟩ := boundFrom_state hb hb'
      exact ih below'

/-! ## Covered machines are never found unstarted -/

/-- The machines nested in `m` are in states that they get to from `cur`. -/
def Wanders (cur : Addr → Nat) (m : Machine) (w : World υ) : Prop :=
  ∀ n ρ, Below m [] n ρ → Reaches n (cur ρ) (w.currentState ρ)

theorem Wanders.same {cur : Addr → Nat} {m : Machine} {w v : World υ} (hw : Wanders cur m w)
    (hv : SameMachines w v) : Wanders cur m v := by
  intro n ρ hn
  rw [hv.current]
  exact hw n ρ hn

theorem Wanders.moved {cur : Addr → Nat} {m : Machine} {w v : World υ} {π : Addr} {s : Nat}
    (hw : Wanders cur m w) (hv : MovedTo π s w v)
    (hs : ∀ n, Below m [] n π → Reaches n (w.currentState π) s) : Wanders cur m v := by
  intro n ρ hn
  rcases eq_or_ne ρ π with rfl | hne
  · rw [hv.self]
    exact (hw n ρ hn).trans (hs n hn)
  · rw [hv.other hne]
    exact hw n ρ hn

section runs
variable {h : Hooks υ} (ho : Outside h) {cur : Addr → Nat} {m n : Machine} {ρ : Addr} {w : World υ}

/-- `n`, at `ρ`, is `m` or nested in it. -/
def Within (m n : Machine) (ρ : Addr) : Prop := (n = m ∧ ρ = []) ∨ Below m [] n ρ

theorem Within.bound (hat : Within m n ρ) {s j : Nat} {k : Machine} (hb : n.bound s = some (j, k)) :
    Below m [] k (j :: ρ) := by
  rcases hat with ⟨rfl, rfl⟩ | hbelow
  · exact .bound hb
  · exact hbelow.snoc hb

include ho

theorem takeTransition_wanders (hat : Within m n ρ) (hw : Wanders cur m w) :
    Wanders cur m (n.takeTransition h ρ w) := by
  obtain ⟨s, hs, hv⟩ := takeTransition_moves ho n ρ w
  refine hw.moved hv fun k hk => ?_
  rcases hat with ⟨rfl, rfl⟩ | hbelow
  · exact hk.irrefl.elim
  · rw [hk.unique hbelow]
    exact hs

theorem checkTransitions_wanders (n : Machine) (ρ : Addr) {w : World υ} (hat : Within m n ρ)
    (hw : Wanders cur m w) : Wanders cur m (n.checkTransitions h ρ w) := by
  cases hs : w.calledStart ρ with
  | false =>
    have hpanic : n.checkTransitions h ρ w =
        h.panic "Error: check_transitions called before StateMachine.start()" w := by
      obtain ⟨d, nested⟩ := n
      rw [Machine.checkTransitions, if_pos (by rw [hs]; rfl)]
    rw [hpanic]
    exact hw.same (ho.panic _ w)
  | true =>
    have hv := takeTransition_wanders ho hat hw
    rw [checkTransitions_eq _ _ _ _ hs]
    split
    next j k hb =>
      have := bound_sizeOf hb
      exact checkTransitions_wanders k (j :: ρ) (.inr (hat.bound hb)) hv
    next => exact hv
termination_by sizeOf n

/-- **Sufficiency**: a covered machine whose marks are there finds no machine
unstarted. -/
theorem covered_quiet {R : Nat → Prop} (hc : Covered cur n ρ R) (hat : Within m n ρ)
    (hw : Wanders cur m w) (hmarks : ∀ σ ∈ marks cur n ρ, w.calledStart σ = true)
    (hcur : R (w.currentState ρ)) (hR : ∀ s s', R s → Reaches n s s' → R s') :
    ¬ checkPanics h n ρ w := by
  induction hc generalizing w with
  | @mk n ρ R other initial ih =>
    have hwv := takeTransition_wanders ho hat hw
    obtain ⟨s, hs, hv⟩ := takeTransition_moves ho n ρ w
    have hstarted : ∀ σ, (n.takeTransition h ρ w).calledStart σ = w.calledStart σ := fun σ => by
      rw [hv.started]
      rfl
    rw [checkPanics_iff _ _ _ (hmarks ρ (mem_marks_self cur n ρ))]
    rintro ⟨j, k, hb, hpanics⟩
    rw [hv.self] at hb
    by_cases hinit : s = cur ρ
    · subst hinit
      refine ih j k hb (.inr (hat.bound hb)) hwv (fun σ hσ => ?_) ?_ ?_ hpanics
      · rw [hstarted]
        exact hmarks σ (mem_marks_bound hb hσ)
      · exact hwv k _ (hat.bound hb)
      · exact fun _ _ => Relation.ReflTransGen.trans
    · -- the machine is marked only, and none is bound below it
      obtain ⟨rfl, halone⟩ := other s (hR _ _ hcur hs) hinit j k hb
      have hmark : (n.takeTransition h ρ w).calledStart (0 :: ρ) = true := by
        rw [hstarted]
        exact hmarks _ (mem_marks_first hb)
      obtain ⟨s', hs', hv'⟩ := takeTransition_moves ho k (0 :: ρ) (n.takeTransition h ρ w)
      rw [checkPanics_iff _ _ _ hmark, hv'.self] at hpanics
      obtain ⟨j', k', hb', -⟩ := hpanics
      have hnone := halone s' ((hwv k _ (hat.bound hb)).trans hs')
      exact absurd (hnone.symm.trans hb') nofun

end runs

end StLib.StateMachine.NestedStart
