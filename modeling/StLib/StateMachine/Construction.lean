import StLib.Base.ExchangeSort
import StLib.StateMachine.Model

/-! # Construction of a state machine

The constructor of `StateMachine`, which `make_state_machine` calls: it sorts the states,
checks that their enumerators count up from 0, and puts their transitions one after the
other in one list, with the start and the length of each state's slice in
`transitions_assoc`. The machine is one for every order of the states, and the slice of a
state is what it was declared with, so `check_transitions` takes the first of them whose
guard is true (`machine_construction`). -/
namespace StLib.StateMachine.Construction

open StLib.Base.ExchangeSort
open StLib.Scheduler.Model StLib.StateMachine.TimedActions StLib.StateMachine.Model

/-- A `State` as it is passed to the constructor. -/
structure StateInput where
  state : Nat
  transitions : List Transition := []
  actions : StateDef := {}
  cyclicActions : List TimedAction := []
deriving DecidableEq

/-- What the constructor leaves; the nested machines are passed through. -/
structure Built where
  currentState : Nat
  d : MachineDef
  cyclicActions : List (List TimedAction)
deriving DecidableEq

/-- Why there is no machine: a `PANIC`, or a loop on `sorted_states.size() - 1` that does
not end because there are no states. Either fails to compile. -/
inductive BuildError
  | panic (message : String)
  | endless
deriving DecidableEq

/-- The list and the table `process_state` writes. -/
structure Flattened where
  transitions : List Transition := []
  transitionsAssoc : List (Nat × Nat)
deriving DecidableEq

/-- The loop of `process_state`: it counts the transitions it pushes. -/
def pushTransitions : List Transition → List Transition × Nat → List Transition × Nat
  | [], r => r
  | t :: rest, (transitions, offset) => pushTransitions rest (transitions ++ [t], offset + 1)

def processState (state : StateInput) (offset : Nat) (m : Flattened) : Flattened :=
  let r := pushTransitions state.transitions (m.transitions, offset)
  { transitions := r.1
    transitionsAssoc := m.transitionsAssoc.set state.state
      (r.2 - state.transitions.length, state.transitions.length) }

/-- The last loop of the constructor. -/
def processStates : List StateInput → Nat → Flattened → Flattened
  | [], _, m => m
  | s :: rest, offset, m =>
    processStates rest (offset + s.transitions.length) (processState s offset m)

/-- The constructor. -/
def construct (initialState : Nat) (statesInput : List StateInput) : Except BuildError Built :=
  let sortedStates := exchangeSort StateInput.state statesInput
  if sortedStates.length = 0 then .error .endless
  else if ¬ sortedStates.Pairwise (fun a b => a.state ≠ b.state) then
    .error (.panic "Duplicate state found in StateMachine constructor")
  else if ¬ sortedStates.map StateInput.state = List.range sortedStates.length then
    .error (.panic "States Enum must be contiguous and start from 0")
  else
    let m := processStates sortedStates 0
      { transitionsAssoc := List.replicate sortedStates.length (0, 0) }
    .ok
      { currentState := initialState
        d :=
          { states := sortedStates.map StateInput.actions
            transitions := m.transitions
            transitionsAssoc := m.transitionsAssoc }
        cyclicActions := sortedStates.map StateInput.cyclicActions }

/-- The enumerators of the states are `0, 1, …`, each once. -/
def Contiguous (l : List StateInput) : Prop :=
  (l.map StateInput.state).Perm (List.range l.length)

/-! ## The flattened list -/

theorem pushTransitions_eq : ∀ (l : List Transition) (r : List Transition × Nat),
    pushTransitions l r = (r.1 ++ l, r.2 + l.length)
  | [], r => by simp [pushTransitions]
  | t :: rest, (transitions, offset) => by
    rw [pushTransitions, pushTransitions_eq rest, List.length_cons]
    simp [Nat.add_assoc, Nat.add_comm 1]

/-- The table's slice for state `s` is `l`. -/
def SliceIs (m : Flattened) (s : Nat) (l : List Transition) : Prop :=
  ∃ start, m.transitionsAssoc[s]? = some (start, l.length) ∧
    start + l.length ≤ m.transitions.length ∧ (m.transitions.drop start).take l.length = l

/-- A state's slice is what it pushes. -/
theorem sliceIs_processState {x : StateInput} {m : Flattened}
    (hx : x.state < m.transitionsAssoc.length) :
    SliceIs (processState x m.transitions.length m) x.state x.transitions := by
  refine ⟨m.transitions.length, ?_, ?_, ?_⟩
  · simp [processState, pushTransitions_eq, hx]
  · simp [processState, pushTransitions_eq]
  · simp [processState, pushTransitions_eq]

/-- The slices of the other states stay. -/
theorem SliceIs.processState {m : Flattened} {s : Nat} {l : List Transition} (h : SliceIs m s l)
    {x : StateInput} (hx : x.state ≠ s) (offset : Nat) :
    SliceIs (Construction.processState x offset m) s l := by
  obtain ⟨start, hget, hlen, hslice⟩ := h
  refine ⟨start, ?_, ?_, ?_⟩
  · rw [Construction.processState, List.getElem?_set_ne hx]
    exact hget
  · simp only [Construction.processState, pushTransitions_eq, List.length_append]
    omega
  · simp only [Construction.processState, pushTransitions_eq]
    rw [List.drop_append_of_le_length (by omega), List.take_append_of_le_length (by
      rw [List.length_drop]
      omega)]
    exact hslice

@[simp] theorem processState_assoc_length (x : StateInput) (offset : Nat) (m : Flattened) :
    (processState x offset m).transitionsAssoc.length = m.transitionsAssoc.length := by
  simp [processState]

theorem processState_length (x : StateInput) (m : Flattened) (offset : Nat) :
    (processState x offset m).transitions.length = m.transitions.length + x.transitions.length := by
  simp [processState, pushTransitions_eq]

/-- The loop keeps the slices that are there and adds one for each state, when the offset is
the length of the list. -/
theorem processStates_slices : ∀ {l : List StateInput} {m : Flattened},
    (l.map StateInput.state).Nodup → (∀ x ∈ l, x.state < m.transitionsAssoc.length) →
    (∀ s t, SliceIs m s t → s ∉ l.map StateInput.state →
      SliceIs (processStates l m.transitions.length m) s t) ∧
    ∀ x ∈ l, SliceIs (processStates l m.transitions.length m) x.state x.transitions
  | [], m, _, _ => ⟨fun _ _ h _ => h, by simp⟩
  | x :: rest, m, hnd, hlt => by
    rw [List.map_cons, List.nodup_cons] at hnd
    obtain ⟨hx, hrest⟩ := List.forall_mem_cons.mp hlt
    obtain ⟨hkeep, hadd⟩ := processStates_slices (l := rest)
      (m := processState x m.transitions.length m) hnd.2 (by simpa using hrest)
    rw [processState_length] at hkeep hadd
    refine ⟨fun s t h hs => ?_, List.forall_mem_cons.mpr ⟨?_, hadd⟩⟩
    · rw [List.map_cons, List.mem_cons, not_or] at hs
      exact hkeep s t (h.processState (Ne.symm hs.1) _) hs.2
    · exact hkeep _ _ (sliceIs_processState hx) hnd.1

/-! ## The machine -/

/-- The guards of a list are called in order, each in what the one before left. -/
def afterGuards {υ : Type} (h : Hooks υ) (l : List Transition) (w : World υ) : World υ :=
  l.foldl (fun w t => (h.predicate t.predicate w).2) w

/-- The guard of `t`, called after those of `pre`. -/
def guardAfter {υ : Type} (h : Hooks υ) (pre : List Transition) (t : Transition) (w : World υ) :
    Bool :=
  (h.predicate t.predicate (afterGuards h pre w)).1

/-- In `w` the machine takes the first of the transitions `l` whose guard is true, or none
if every guard is false; the guards after it are not called. -/
def TakesFirst {υ : Type} (h : Hooks υ) (m : Machine) (π : Addr) (l : List Transition)
    (w : World υ) : Prop :=
  (∃ pre t post, l = pre ++ t :: post ∧
    (∀ pre' t' post', pre = pre' ++ t' :: post' → guardAfter h pre' t' w = false) ∧
    guardAfter h pre t w = true ∧
    m.takeTransition h π w =
      m.performStateChange h π t.target (afterGuards h (pre ++ [t]) w)) ∨
  ((∀ pre t post, l = pre ++ t :: post → guardAfter h pre t w = false) ∧
    m.takeTransition h π w = afterGuards h l w)

/-- The first true guard, found. -/
theorem firstTrue_spec {υ : Type} (h : Hooks υ) : ∀ (l : List Transition) (w : World υ),
    (∃ pre t post, l = pre ++ t :: post ∧
      (∀ pre' t' post', pre = pre' ++ t' :: post' → guardAfter h pre' t' w = false) ∧
      guardAfter h pre t w = true ∧
      firstTrue h l w = (some t.target, afterGuards h (pre ++ [t]) w)) ∨
    ((∀ pre t post, l = pre ++ t :: post → guardAfter h pre t w = false) ∧
      firstTrue h l w = (none, afterGuards h l w))
  | [], w => .inr ⟨by simp, rfl⟩
  | t :: rest, w => by
    rw [firstTrue]
    cases hg : (h.predicate t.predicate w).1 with
    | true => exact .inl ⟨[], t, rest, rfl, by simp, hg, by simp [afterGuards]⟩
    | false =>
      -- the rest is asked in what the guard left
      have hcons : ∀ (pre : List Transition) t', guardAfter h (t :: pre) t' w =
          guardAfter h pre t' (h.predicate t.predicate w).2 := fun _ _ => rfl
      have hfalse : ∀ {l : List Transition}, (∀ pre t' post, l = pre ++ t' :: post →
            guardAfter h pre t' (h.predicate t.predicate w).2 = false) →
          ∀ pre t' post, t :: l = pre ++ t' :: post → guardAfter h pre t' w = false := by
        intro l hl pre t' post he
        cases pre with
        | nil =>
          obtain ⟨rfl, -⟩ := List.cons.inj he
          exact hg
        | cons u pre =>
          obtain ⟨rfl, htail⟩ := List.cons.inj he
          rw [hcons]
          exact hl pre t' post htail
      rcases firstTrue_spec h rest (h.predicate t.predicate w).2 with
        ⟨pre, t', post, rfl, hpre, htrue, hfirst⟩ | ⟨hall, hfirst⟩
      · refine .inl ⟨t :: pre, t', post, rfl, hfalse hpre, htrue, ?_⟩
        simp only [hfirst, Bool.false_eq_true, if_false]
        rfl
      · refine .inr ⟨hfalse hall, ?_⟩
        simp only [hfirst, Bool.false_eq_true, if_false]
        rfl

theorem takesFirst_of_slice {υ : Type} (h : Hooks υ) {m : Machine} {π : Addr}
    {l : List Transition} {w : World υ} (hslice : m.slice (w.currentState π) = l) :
    TakesFirst h m π l w := by
  rcases firstTrue_spec h l w with ⟨pre, t, post, hl, hpre, htrue, hfirst⟩ | ⟨hall, hfirst⟩
  · refine .inl ⟨pre, t, post, hl, hpre, htrue, ?_⟩
    rw [Machine.takeTransition, hslice, hfirst]
  · refine .inr ⟨hall, ?_⟩
    rw [Machine.takeTransition, hslice, hfirst]

section
variable {l : List StateInput}

theorem Contiguous.nodup (h : Contiguous l) : (l.map StateInput.state).Nodup :=
  h.nodup_iff.mpr List.nodup_range

/-- Contiguous states are sorted into their places. -/
theorem Contiguous.sorted (h : Contiguous l) :
    (exchangeSort StateInput.state l).map StateInput.state = List.range l.length := by
  have hperm := ((exchangeSort_perm StateInput.state l).map StateInput.state).trans h
  refine hperm.eq_of_pairwise (fun a b _ _ => Nat.le_antisymm) ?_ ?_
  · exact List.pairwise_map.mpr (exchangeSort_sorted StateInput.state l)
  · exact List.pairwise_lt_range.imp Nat.le_of_lt

/-- Contiguous states, at least one, make a machine. -/
theorem construct_ok (h : Contiguous l) (hne : l ≠ []) (initialState : Nat) :
    construct initialState l = .ok
      { currentState := initialState
        d :=
          { states := (exchangeSort StateInput.state l).map StateInput.actions
            transitions := (processStates (exchangeSort StateInput.state l) 0
              { transitionsAssoc := List.replicate l.length (0, 0) }).transitions
            transitionsAssoc := (processStates (exchangeSort StateInput.state l) 0
              { transitionsAssoc := List.replicate l.length (0, 0) }).transitionsAssoc }
        cyclicActions := (exchangeSort StateInput.state l).map StateInput.cyclicActions } := by
  have hlen := (exchangeSort_perm StateInput.state l).length_eq
  have hpos : ¬ l.length = 0 := fun h0 => hne (List.length_eq_zero_iff.mp h0)
  have hnd : (exchangeSort StateInput.state l).Pairwise fun a b => a.state ≠ b.state := by
    have := (h.sorted ▸ List.nodup_range :
      ((exchangeSort StateInput.state l).map StateInput.state).Nodup)
    exact List.pairwise_map.mp this
  simp only [construct, hlen, if_neg hpos, if_neg (not_not_intro hnd),
    if_neg (not_not_intro h.sorted)]

end

/-- The slice of a declared state. -/
theorem slice_of_sliceIs {m : Flattened} {s : Nat} {l : List Transition} (h : SliceIs m s l)
    (states : List StateDef) (nested : Nested) :
    (Machine.mk { states, transitions := m.transitions, transitionsAssoc := m.transitionsAssoc }
      nested).slice s = l := by
  obtain ⟨start, hget, -, hslice⟩ := h
  have hp : m.transitionsAssoc.getD s (0, 0) = (start, l.length) := by
    rw [List.getD_eq_getElem?_getD, hget]
    rfl
  show ((m.transitions.drop (m.transitionsAssoc.getD s (0, 0)).1).take
    (m.transitionsAssoc.getD s (0, 0)).2) = l
  rw [hp]
  exact hslice

/-- **Construction**: the machine does not depend on the order of the states, each state's
slice is the list of transitions it declares, in its order, and checking transitions in that
state takes the first of them whose guard is true. -/
theorem machine_construction {l : List StateInput} (hl : Contiguous l) (initialState : Nat) :
    (∀ l', l'.Perm l → construct initialState l' = construct initialState l) ∧
    ∀ x ∈ l, ∃ b, construct initialState l = .ok b ∧
      b.d.states[x.state]? = some x.actions ∧ b.cyclicActions[x.state]? = some x.cyclicActions ∧
      ∀ nested, (Machine.mk b.d nested).slice x.state = x.transitions ∧
        ∀ (υ : Type) (h : Hooks υ) (π : Addr) (w : World υ), w.currentState π = x.state →
          TakesFirst h (.mk b.d nested) π x.transitions w ∧
          (w.calledStart π = true → (Machine.mk b.d nested).checkTransitions h π w =
            nested.checkTransitions h
              (((Machine.mk b.d nested).takeTransition h π w).currentState π) 0 π
              ((Machine.mk b.d nested).takeTransition h π w)) := by
  refine ⟨fun l' hperm => ?_, fun x hx => ?_⟩
  · rw [construct, construct, exchangeSort_congr StateInput.state hperm hl.nodup]
  · have hsorted := hl.sorted
    have hperm := exchangeSort_perm StateInput.state l
    have hmem : x ∈ exchangeSort StateInput.state l := hperm.mem_iff.mpr hx
    have hslice := (processStates_slices (l := exchangeSort StateInput.state l)
      (m := { transitionsAssoc := List.replicate l.length (0, 0) })
      (hsorted ▸ List.nodup_range) (fun y hy => by
        have : y.state ∈ (exchangeSort StateInput.state l).map StateInput.state :=
          List.mem_map_of_mem hy
        rw [hsorted, List.mem_range] at this
        rwa [List.length_replicate])).2 x hmem
    -- the sorted state at the index of an enumerator is the one with that enumerator
    obtain ⟨i, hi, hget⟩ := List.getElem_of_mem hmem
    have hix : x.state = i := by
      have hstate := List.getElem_of_eq hsorted (i := i) (by simpa using hi)
      simpa [hget] using hstate
    refine ⟨_, construct_ok hl (List.ne_nil_of_mem hx) initialState, ?_, ?_, fun nested => ?_⟩
    · simp [hix, List.getElem?_eq_getElem hi, hget]
    · simp [hix, List.getElem?_eq_getElem hi, hget]
    · have hs := slice_of_sliceIs hslice ((exchangeSort StateInput.state l).map StateInput.actions)
        nested
      refine ⟨hs, fun υ h π w hw => ⟨takesFirst_of_slice h (by rw [hw]; exact hs), fun hstart => ?_⟩⟩
      simp only [Machine.checkTransitions, hstart, Bool.not_true, Bool.false_eq_true, if_false]

/-- Two states in the wrong order: the machine is the one of the right order, and the slice
of the second state is its transition. -/
theorem machine_construction_exchanged :
    construct 0 [⟨1, [⟨0, 0⟩], {}, []⟩, ⟨0, [⟨1, 1⟩, ⟨1, 2⟩], {}, []⟩] =
        construct 0 [⟨0, [⟨1, 1⟩, ⟨1, 2⟩], {}, []⟩, ⟨1, [⟨0, 0⟩], {}, []⟩] ∧
      ∃ b, construct 0 [⟨0, [⟨1, 1⟩, ⟨1, 2⟩], {}, []⟩, ⟨1, [⟨0, 0⟩], {}, []⟩] = .ok b ∧
        (Machine.mk b.d .nil).slice 1 = [⟨0, 0⟩] := by
  have h := machine_construction
    (l := [⟨0, [⟨1, 1⟩, ⟨1, 2⟩], {}, []⟩, ⟨1, [⟨0, 0⟩], {}, []⟩]) (.refl _) 0
  obtain ⟨b, hb, -, -, hslice⟩ := h.2 ⟨1, [⟨0, 0⟩], {}, []⟩ (by simp)
  exact ⟨h.1 _ (.swap _ _ []), b, hb, (hslice .nil).1⟩

end StLib.StateMachine.Construction
