import StLib.StateMachine.ActivityInvariant
import StLib.Protections.FaultLatch

/-! # No operational activity in `FAULT`

Switching the global machine to `FAULT` exits the operational machine's current
state, and with it unregisters the cyclic actions of that state and of no other. A
state of a machine nested below it stays registered; and when the request comes
from a callback of a state change or a start under way, the change goes on and
registers the cyclic actions of the state it enters. With neither, nothing stays
registered (`fault_quiet`). -/
namespace StLib.Protections.FaultQuiet

open StLib.Base.Runs
open StLib.Scheduler.Model StLib.Scheduler.Invariant
open StLib.StateMachine.TimedActions StLib.StateMachine.Model StLib.StateMachine.Activity
open StLib.StateMachine.Rules StLib.StateMachine.ActivityInvariant
open StLib.Protections.FaultController StLib.Protections.FaultRequest StLib.Protections.FaultLatch

variable {κ υ : Type} {prog : Program κ υ} {F : Finset Slot} {p : Policy}

/-- The current state of the operational machine. -/
def operationalState (p : Policy) (w : CWorld κ υ) : List (Addr × Nat) :=
  match p.operationalMachine with
  | some _ => [(p.operationalAddr, w.currentState p.operationalAddr)]
  | none => []

/-- The states of the global machine have no cyclic actions. -/
def Bare (p : Policy) (w : CWorld κ υ) : Prop := ∀ s, w.cyclicActions p.addr s = []

/-! ## While a fault is latched -/

/-- A fault is latched, and the states `P` hold what is registered. -/
structure Clear (F : Finset Slot) (p : Policy) (P : List (Addr × Nat)) (w : CWorld κ υ) : Prop where
  faulted : w.user.faulted = true
  bare : Bare p w
  held : Held F P w

variable {P : List (Addr × Nat)} {w : CWorld κ υ}

theorem Clear.congr {v : CWorld κ υ} (h : Clear F p P w) (hf : v.user.faulted = w.user.faulted)
    (hc : v.cyclicActions = w.cyclicActions) (hs : v.sched = w.sched) : Clear F p P v :=
  ⟨hf.trans h.faulted, fun s => by rw [hc]; exact h.bare s, h.held.congr hc hs⟩

theorem requestFault_clear (c : κ) (w : CWorld κ υ) (h : Clear F p P w) :
    Clear F p P (requestFault prog c w) := by
  rw [requestAgain_eq prog c h.faulted]
  exact h.congr rfl rfl rfl

theorem program_clear (x : υ) (w : CWorld κ υ) (h : Clear F p P w) :
    Clear F p P (mapUser (fun u => { u with program := x }) w) :=
  h.congr rfl rfl rfl

theorem bare_unregister {w : CWorld κ υ} (h : Bare p w) (π : Addr) (s : Nat) :
    Bare p (unregisterAllTimedActions π s w) := by
  intro t
  refine (setCyclicActions_eq w π s _ (p.addr, t)).trans ?_
  split
  next he =>
    obtain ⟨rfl, rfl⟩ := Prod.mk.inj he
    rw [h t]
    rfl
  next => exact h t

theorem unregister_clear {π : Addr} {s : Nat} (h : Clear F p P w) :
    Clear F p P (unregisterAllTimedActions π s w) :=
  ⟨h.faulted, bare_unregister h.bare π s, h.held.keep π s⟩

theorem unregister_pending {π : Addr} {s : Nat} (h : Clear F p ((π, s) :: P) w) :
    Clear F p P (unregisterAllTimedActions π s w) :=
  ⟨h.faulted, bare_unregister h.bare π s, h.held.unregister.1⟩

theorem runActions_clear {request : κ → CWorld κ υ → CWorld κ υ}
    (hr : ∀ c w, Clear F p P w → Clear F p P (request c w)) :
    ∀ (l : List (Option Callback)) (w : CWorld κ υ), Clear F p P w →
      Clear F p P (runActions (hooks prog request) l w)
  | [], _, h => h
  | none :: rest, w, h => runActions_clear hr rest w h
  | some c :: rest, w, h => by
    refine runActions_clear hr rest _ ?_
    show Clear F p P (if _ then _ else _)
    split
    · exact runFaultStateEnter_rule program_clear hr (fun _ h => h.congr rfl rfl rfl) h
    · exact runActs_rule program_clear hr h

/-! ## The request that latches -/

/-- **Switching to `FAULT`** frees what the operational machine's current state holds. -/
theorem forceFault_clear (h : Clear F p (operationalState p w ++ P) w)
    (hs : w.currentState p.addr = RuntimeState.operational.toNat) :
    Clear F p P (p.runtimeMachine.forceChangeState (hooks prog requestAgain) p.addr
      RuntimeState.fault.toNat w) := by
  have hr : ∀ (Q : List (Addr × Nat)) c (v : CWorld κ υ), Clear F p Q v →
      Clear F p Q (requestAgain c v) := fun _ _ _ hv => hv.congr rfl rfl rfl
  have hexit : Clear F p (operationalState p w ++ P)
      (p.runtimeMachine.exit (hooks prog requestAgain) p.addr w) :=
    runActions_clear (hr _) _ _ (unregister_clear (h.congr rfl rfl rfl))
  have hcur : (p.runtimeMachine.exit (hooks prog requestAgain) p.addr w).currentState =
      w.currentState := exitState_still (hooks_still prog) _ _ _ _
  have hbound : Clear F p P (p.runtimeMachine.exitBound (hooks prog requestAgain) p.addr
      (p.runtimeMachine.exit (hooks prog requestAgain) p.addr w)) := by
    unfold Machine.exitBound
    unfold operationalState at hexit
    rw [hcur, hs, bound_operational]
    cases hm : p.operationalMachine with
    | none =>
      rw [hm] at hexit
      exact hexit
    | some m =>
      rw [hm] at hexit
      refine runActions_clear (hr P) _ _ (unregister_pending ?_)
      rw [hcur]
      exact hexit.congr rfl rfl rfl
  have hleave : Clear F p P (p.runtimeMachine.leave (hooks prog requestAgain) p.addr w) := by
    unfold Machine.leave Machine.removeStateOrders
    dsimp only
    split
    · exact hbound.congr rfl rfl rfl
    · exact hbound
  have hne : w.currentState p.addr ≠ RuntimeState.fault.toNat := by
    rw [hs]
    decide
  rw [Machine.forceChangeState, Machine.performStateChange, if_neg hne]
  have hmid : Clear F p P ((p.runtimeMachine.leave (hooks prog requestAgain) p.addr w).setCurrentState
      p.addr RuntimeState.fault.toNat) := hleave.congr rfl rfl rfl
  have hfault : ((p.runtimeMachine.leave (hooks prog requestAgain) p.addr w).setCurrentState p.addr
      RuntimeState.fault.toNat).currentState p.addr = RuntimeState.fault.toNat :=
    Function.update_self ..
  generalize (p.runtimeMachine.leave (hooks prog requestAgain) p.addr w).setCurrentState p.addr
    RuntimeState.fault.toNat = v at hmid hfault
  have henter : Clear F p P (p.runtimeMachine.enter (hooks prog requestAgain) p.addr v) := by
    have hact := @runActions_clear _ _ prog _ _ _ _ (hr P)
      (p.runtimeMachine.state (v.currentState p.addr)).onEnterActions
      (v.log (.entered p.addr (v.currentState p.addr))) (hmid.congr rfl rfl rfl)
    unfold Machine.enter enterState
    rw [register_null _ (by rw [hact.bare]; exact fun a ha => absurd ha List.not_mem_nil)]
    exact hact
  have hentered : (p.runtimeMachine.enter (hooks prog requestAgain) p.addr v).currentState p.addr =
      RuntimeState.fault.toNat :=
    (congrFun (enterState_still (hooks_still prog) _ _ _ _) _).trans hfault
  unfold Machine.arrive Machine.enterBound Machine.refreshStateOrders
  rw [hentered, bound_fault]
  dsimp only
  split
  · exact henter.congr rfl rfl rfl
  · exact henter

/-- What the rules of the operational machine keep: the latch, and what is registered
once a fault is latched, with a state that is still to be exited. -/
structure Inv (F : Finset Slot) (p : Policy) (w₀ : CWorld κ υ) (X : Option (Addr × Nat))
    (w : CWorld κ υ) : Prop where
  agrees : Agrees w₀ w
  bare : Bare p w
  held : w.user.faulted = true → Held F X.toList w

/-- The global machine of `p` runs. -/
structure Runs (p : Policy) (w : CWorld κ υ) : Prop where
  runtime : w.user.runtime = some p
  started : w.user.runtimeStarted = true

theorem Agrees.runs {w₀ w : CWorld κ υ} (h : Agrees w₀ w) (h0 : Runs p w₀) : Runs p w :=
  ⟨h.2.runtime.trans h0.runtime, h.2.started.trans h0.started⟩

/-- **The first request** frees what the operational machine's current state holds. -/
theorem requestFault_first_clear (c : κ) (hl : Latched w) (hrun : Runs p w)
    (hf : w.user.faulted = false) (hb : Bare p w) (hh : Held F (operationalState p w ++ P) w) :
    Clear F p P (requestFault prog c w) := by
  rw [requestFault_first prog c hf,
    switchToFault_force (w := latch c (recordRequest c w)) hrun.runtime hrun.started]
  have hclear : Clear F p (operationalState p w ++ P) (latch c (recordRequest c w)) :=
    ⟨rfl, hb, hh.congr rfl rfl⟩
  refine (@forceFault_clear _ _ prog _ _ _ _ hclear ?_).congr rfl rfl rfl
  have := hl.state p hrun.runtime
  rwa [hf] at this

/-- The steps of a callback: either none requests a fault, or the first one that does
frees what the operational machine's current state holds. -/
theorem runActs_first {w₀ : CWorld κ υ} (h0 : Runs p w₀) (ha : Agrees w₀ w)
    (hf : w.user.faulted = false) (hb : Bare p w) (l : List (Act κ υ)) :
    let v := runActs (requestFault prog) l w
    (v.user.faulted = false ∧ v.cyclicActions = w.cyclicActions) ∨
      (v.user.faulted = true ∧ (Held F (operationalState p w ++ P) w → Clear F p P v)) := by
  have hinv := @runActs_rule _ _
    (fun v => (Agrees w₀ v ∧ v.user.faulted = false ∧ v.cyclicActions = w.cyclicActions ∧
      v.sched = w.sched ∧ v.currentState = w.currentState) ∨
      (v.user.faulted = true ∧ (Held F (operationalState p w ++ P) w → Clear F p P v)))
    (requestFault prog) ?_ ?_ l w (.inl ⟨ha, hf, rfl, rfl, rfl⟩)
  · rcases hinv with ⟨-, hfv, hc, -⟩ | h
    · exact .inl ⟨hfv, hc⟩
    · exact .inr h
  · rintro x v (⟨hv, hfv, hc⟩ | ⟨hfv, hc⟩)
    · exact .inl ⟨hv.program x, hfv, hc⟩
    · exact .inr ⟨hfv, fun hh => program_clear x v (hc hh)⟩
  · rintro c v (⟨hv, hfv, hcyc, hsched, hcur⟩ | ⟨hfv, hc⟩)
    · refine .inr ⟨requestFault_faulted c hv.1, fun hh => ?_⟩
      refine requestFault_first_clear c hv.1 (Agrees.runs hv h0) hfv
        (fun s => by rw [hcyc]; exact hb s) ?_
      have hop : operationalState p v = operationalState p w := by
        unfold operationalState
        rw [hcur]
      rw [hop]
      exact hh.congr hcyc hsched
    · refine .inr ⟨?_, fun hh => requestFault_clear c v (hc hh)⟩
      rw [requestAgain_eq prog c hfv]
      exact hfv

/-! ## The condition on a start and on a check -/

/-- A callback that requests the first fault finds what is registered in the operational
machine's current state, or in the state that the running change exits next; and no
state with cyclic actions is entered once a fault is latched, be it by the state's own
enter actions. -/
def monitor (prog : Program κ υ) (F : Finset Slot) (p : Policy) : Monitor (Controller κ υ) where
  action X c w := w.user.faulted = false → ((outerHooks prog).action c w).user.faulted = true →
    Held F (operationalState p w ++ X.toList) w
  predicate g w := w.user.faulted = false → ((outerHooks prog).predicate g w).2.user.faulted = true →
    Held F (operationalState p w) w
  panic w := w.user.faulted = false → Held F (operationalState p w) w
  register π s w :=
    (w.user.faulted = true → ∀ a ∈ w.cyclicActions π s, a.action = none) ∧
    (w.user.faulted = false → (registerAll (w.cyclicActions π s) w.sched).2.2 = false →
      let v := { w.setCyclicActions π s (registerAll (w.cyclicActions π s) w.sched).1 with
        sched := (registerAll (w.cyclicActions π s) w.sched).2.1 }
      Held F (operationalState p v) v)

/-! ## The operational machine -/

variable {w₀ : CWorld κ υ} {X : Option (Addr × Nat)}

theorem Inv.clear (h : Inv F p w₀ X w) (hf : w.user.faulted = true) : Clear F p X.toList w :=
  ⟨hf, h.bare, h.held hf⟩

theorem Clear.inv {v : CWorld κ υ} (h : Clear F p X.toList v) (ha : Agrees w₀ v) :
    Inv F p w₀ X v :=
  ⟨ha, h.bare, fun _ => h.held⟩

theorem bare_of_eq {v : CWorld κ υ} (h : Bare p w) (hc : v.cyclicActions = w.cyclicActions) :
    Bare p v :=
  fun s => by rw [hc]; exact h s

/-- The steps of a callback keep the invariant. -/
theorem runActs_inv (h0 : Runs p w₀) (h : Inv F p w₀ X w) (l : List (Act κ υ))
    (ha : Agrees w₀ (runActs (requestFault prog) l w))
    (hm : w.user.faulted = false → (runActs (requestFault prog) l w).user.faulted = true →
      Held F (operationalState p w ++ X.toList) w) :
    Inv F p w₀ X (runActs (requestFault prog) l w) := by
  cases hf : w.user.faulted with
  | true => exact (runActs_rule program_clear requestFault_clear (h.clear hf)).inv ha
  | false =>
    rcases runActs_first (F := F) (P := X.toList) h0 h.agrees hf h.bare l with ⟨hv, hc⟩ | ⟨hv, hc⟩
    · exact ⟨ha, bare_of_eq h.bare hc, fun hv' => absurd (hv.symm.trans hv') nofun⟩
    · exact (hc (hm hf hv)).inv ha

/-- A single request keeps the invariant. -/
theorem request_inv (h0 : Runs p w₀) (h : Inv F p w₀ none w) (c : κ)
    (hm : w.user.faulted = false → Held F (operationalState p w) w) :
    Inv F p w₀ none (requestFault prog c w) := by
  have ha := @Agrees.request _ _ prog _ c _ h.agrees
  cases hf : w.user.faulted with
  | true => exact Clear.inv (X := none) (requestFault_clear c w (h.clear hf)) ha
  | false =>
    refine Clear.inv (X := none) (requestFault_first_clear c h.agrees.1 (Agrees.runs h.agrees h0) hf
      h.bare ?_) ha
    simpa using hm hf

theorem bare_set (h : Bare p w) {π : Addr} {s : Nat} {l : List TimedAction}
    (hl : w.cyclicActions π s = [] → l = []) : Bare p (w.setCyclicActions π s l) := by
  intro t
  refine (setCyclicActions_eq w π s l (p.addr, t)).trans ?_
  split
  next he =>
    obtain ⟨rfl, rfl⟩ := Prod.mk.inj he
    exact hl (h t)
  next => exact h t

/-- **The operational machine** keeps the invariant under the monitor. -/
theorem keeps_inv (h0 : Runs p w₀) : Keeps p.operationalAddr (outerHooks prog)
    (monitor prog F p) (· ≠ onFaultStateEnter) (Inv F p w₀) where
  weaken X w h := by
    refine ⟨h.agrees, h.bare, fun hf => ?_⟩
    cases X with
    | none => exact h.held hf
    | some x => exact (h.held hf).cons (List.not_mem_nil)
  action X d w hd hm h := by
    have ha := (@keeps_agrees _ _ prog w₀ p).action X d w hd trivial h.agrees
    simp only [monitor, outerHooks, hooks, if_neg hd] at hm ha ⊢
    exact runActs_inv h0 h _ ha hm
  entered π s w h := ⟨h.agrees.congr rfl fun _ => rfl, h.bare, fun hf => (h.held hf).congr rfl rfl⟩
  register π s w hm h := by
    obtain ⟨hnull, hfail⟩ := hm
    cases hf : w.user.faulted with
    | true =>
      rw [register_null _ (hnull hf)]
      exact h
    | false =>
      have hbare : Bare p { w.setCyclicActions π s (registerAll (w.cyclicActions π s) w.sched).1 with
          sched := (registerAll (w.cyclicActions π s) w.sched).2.1 } :=
        bare_set h.bare fun hl => by rw [hl]; rfl
      have hset : Inv F p w₀ none
          { w.setCyclicActions π s (registerAll (w.cyclicActions π s) w.sched).1 with
            sched := (registerAll (w.cyclicActions π s) w.sched).2.1 } :=
        ⟨h.agrees.congr rfl fun _ => rfl, hbare, fun hf' => by cases hf.symm.trans hf'⟩
      unfold registerAllTimedActions
      dsimp only
      split
      next => exact hset
      next hok => exact request_inv h0 hset _ fun _ => hfail hf (by simpa using hok)
  unregister π s w h := by
    refine ⟨h.agrees.congr rfl fun _ => rfl, bare_unregister h.bare π s, fun hf => ?_⟩
    exact ((h.held hf).congr rfl rfl : Held F [(π, s)] (w.log (.exited π s))).unregister.1
  addStateOrders ids w h := ⟨h.agrees.program _, h.bare, fun hf => (h.held hf).congr rfl rfl⟩
  removeStateOrders ids w h := ⟨h.agrees.program _, h.bare, fun hf => (h.held hf).congr rfl rfl⟩
  still := (@keeps_agrees _ _ _ w₀ p).still
  predicate g w hm h := by
    have ha := (@keeps_agrees _ _ prog w₀ p).predicate g w trivial h.agrees
    exact runActs_inv (X := none) h0 h _ ha fun hf hf' => by simpa using hm hf hf'
  panic msg w hm h := request_inv h0 h _ hm
  current π s w hπ h :=
    ⟨(@keeps_agrees _ _ prog w₀ p).current π s w hπ h.agrees, h.bare,
      fun hf => (h.held hf).congr rfl rfl⟩
  started π w hπ h :=
    ⟨h.agrees.congr rfl fun _ => rfl, h.bare, fun hf => (h.held hf).congr rfl rfl⟩

/-! ## Operations of the controller -/

theorem markStarted_inv (nested : Nested) (π : Addr) (h : Inv F p w₀ none w) :
    Inv F p w₀ none (nested.markStarted π w) := by
  cases nested with
  | nil => exact h
  | cons => exact ⟨h.agrees.congr rfl fun _ => rfl, h.bare, fun hf => (h.held hf).congr rfl rfl⟩

/-- Starting in `OPERATIONAL`. -/
theorem startOperational_inv (h : Inv F p w none w) (hrun : Runs p w)
    (hf : w.user.faulted = false)
    (hm : StartMeets (outerHooks prog) (monitor prog F p) p.runtimeMachine p.addr w) :
    Inv F p w none (p.runtimeMachine.start (outerHooks prog) p.addr w) := by
  have hcur : (w.setCalledStart p.addr).currentState p.addr = RuntimeState.operational.toNat := by
    rw [show (w.setCalledStart p.addr).currentState p.addr = _ from h.agrees.1.state p hrun.runtime, hf]
    rfl
  have henter : p.runtimeMachine.enter (outerHooks prog) p.addr (w.setCalledStart p.addr) =
      (w.setCalledStart p.addr).log (.entered p.addr RuntimeState.operational.toNat) := by
    unfold Machine.enter
    rw [hcur]
    have hnone : ((w.setCalledStart p.addr).log (.entered p.addr RuntimeState.operational.toNat)
        ).cyclicActions p.addr RuntimeState.operational.toNat = [] := h.bare _
    exact register_null (w := (w.setCalledStart p.addr).log _) (outerHooks prog) fun a ha => by
      rw [hnone] at ha
      cases ha
  rw [start_eq]
  refine markStarted_inv _ _ ?_
  unfold Policy.runtimeMachine at hm
  rw [StartMeets] at hm
  replace hm := hm.2
  change NestedStartMeets _ _ _ ((p.runtimeMachine.enter _ _ _).currentState p.addr) 0 p.addr
    (p.runtimeMachine.enter _ _ _) at hm
  rw [henter] at hm ⊢
  have hv : Inv F p w none
      ((w.setCalledStart p.addr).log (.entered p.addr RuntimeState.operational.toNat)) :=
    ⟨h.agrees.congr rfl fun _ => rfl, h.bare, fun hf => (h.held hf).congr rfl rfl⟩
  generalize hlog : (w.setCalledStart p.addr).log (.entered p.addr RuntimeState.operational.toNat) = v
    at hm hv
  have hcurv : v.currentState p.addr = RuntimeState.operational.toNat := by
    rw [← hlog]
    exact hcur
  rw [hcurv] at hm
  rw [hcurv, bound_operational]
  cases hop : p.operationalMachine with
  | none => exact hv
  | some m =>
    rw [hop] at hm
    simp only [NestedStartMeets, if_true] at hm
    exact start_rule (keeps_inv hrun) (p.own m hop) (List.suffix_refl _) hm hv

/-- Checking the global machine. -/
theorem checkRuntime_inv (h : Inv F p w none w) (hrun : Runs p w)
    (hm : w.user.faulted = false →
      CheckMeets (outerHooks prog) (monitor prog F p) p.runtimeMachine p.addr w) :
    Inv F p w none (p.runtimeMachine.checkTransitions (outerHooks prog) p.addr w) := by
  have hstate := h.agrees.1.state p hrun.runtime
  cases hs : w.calledStart p.addr with
  | false =>
    have hpanic : p.runtimeMachine.checkTransitions (outerHooks prog) p.addr w =
        (outerHooks prog).panic "Error: check_transitions called before StateMachine.start()" w := by
      rw [Policy.runtimeMachine, Machine.checkTransitions, if_pos (by rw [hs]; rfl)]
    rw [hpanic]
    refine request_inv hrun h _ fun hf => ?_
    have := hm hf
    unfold Policy.runtimeMachine at this
    rw [CheckMeets, if_pos (by rw [hs]; rfl)] at this
    exact this hf
  | true =>
    rw [checkTransitions_eq _ _ _ _ hs, takeTransition_runtime _ _ hstate, hstate]
    cases hf : w.user.faulted with
    | true =>
      simp only [if_true, bound_fault]
      exact h
    | false =>
      simp only [Bool.false_eq_true, if_false, bound_operational]
      cases hop : p.operationalMachine with
      | none => exact h
      | some m =>
        have hmeets := hm hf
        unfold Policy.runtimeMachine at hmeets
        rw [CheckMeets, if_neg (by rw [hs]; exact Bool.false_ne_true)] at hmeets
        have htake := takeTransition_runtime (outerHooks prog) _ hstate
        unfold Policy.runtimeMachine at htake
        dsimp only at hmeets
        rw [htake, hstate, hop, hf] at hmeets
        simp only [NestedCheckMeets, Bool.false_eq_true, if_false, if_true] at hmeets
        exact checkTransitions_rule (keeps_inv hrun) (p.own m hop) (List.suffix_refl _)
          hmeets.2 h

/-- A call on the operational machine, past the controller, meets the monitor. -/
def OperationalMeets (prog : Program κ υ) (F : Finset Slot) (p : Policy) (op : MachineOp)
    (w : CWorld κ υ) : Prop :=
  match p.operationalMachine with
  | some m =>
    match op with
    | .start => StartMeets (outerHooks prog) (monitor prog F p) m p.operationalAddr w
    | .checkTransitions => CheckMeets (outerHooks prog) (monitor prog F p) m p.operationalAddr w
    | .forceChangeState s =>
      ChangeMeets (outerHooks prog) (monitor prog F p) m p.operationalAddr s w
  | none => True

theorem callOperational_inv (h0 : Runs p w₀) (op : MachineOp)
    (hm : OperationalMeets prog F p op w) (h : Inv F p w₀ none w) :
    Inv F p w₀ none (callOperational prog p op w) := by
  unfold callOperational
  unfold OperationalMeets at hm
  split
  next m hop =>
    rw [hop] at hm
    have hu := p.own m hop
    cases op with
    | start => exact start_rule (keeps_inv h0) hu (List.suffix_refl _) hm h
    | checkTransitions => exact checkTransitions_rule (keeps_inv h0) hu (List.suffix_refl _) hm h
    | forceChangeState s =>
      exact performStateChange_rule (keeps_inv h0) hu (List.suffix_refl _) hm h
  next => exact h

/-- Starting in `FAULT`. -/
theorem startFault_clear (h : Clear F p P w)
    (henter : (p.runtimeMachine.enter (outerHooks prog) p.addr
      (w.setCalledStart p.addr)).currentState p.addr = RuntimeState.fault.toNat) :
    Clear F p P (p.runtimeMachine.start (outerHooks prog) p.addr w) := by
  have hact : Clear F p P (p.runtimeMachine.enter (outerHooks prog) p.addr
      (w.setCalledStart p.addr)) := by
    have hact := @runActions_clear _ _ prog _ _ _ _ (@requestFault_clear _ _ prog _ _ _)
      (p.runtimeMachine.state ((w.setCalledStart p.addr).currentState p.addr)).onEnterActions
      ((w.setCalledStart p.addr).log (.entered p.addr ((w.setCalledStart p.addr).currentState p.addr)))
      (h.congr rfl rfl rfl)
    unfold Machine.enter enterState
    rw [register_null _ fun a ha => by
      rw [outerHooks, hact.bare] at ha
      cases ha]
    exact hact
  rw [start_eq, henter, bound_fault]
  cases p.runtimeMachine.nested with
  | nil => exact hact
  | cons => exact hact.congr rfl rfl rfl

/-- The machine built anew has no cyclic actions. -/
theorem bare_rebuilt {v : CWorld κ υ}
    (hc : v.cyclicActions = Function.update w.cyclicActions p.addr fun _ => []) : Bare p v := by
  intro t
  rw [hc, Function.update_self]

theorem held_rebuilt {v : CWorld κ υ} (h : Held F [] w)
    (hc : v.cyclicActions = Function.update w.cyclicActions p.addr fun _ => [])
    (hs : v.sched = w.sched) : Held F [] v := by
  refine Held.congr (w := { w with cyclicActions := v.cyclicActions }) ?_ rfl hs
  refine ⟨h.nodup, fun x hx a ha => ?_, nofun, h.distinct, h.foreign, h.taken, h.sound⟩
  change a ∈ v.cyclicActions x.1 x.2 at ha
  rw [hc] at ha
  by_cases hp : x.1 = p.addr
  · rw [hp, Function.update_self] at ha
    cases ha
  · rw [Function.update_of_ne hp] at ha
    exact h.off x hx a ha

/-! ## Runs -/

/-- What holds between two operations: before the start, and once a fault is latched,
only the slots `F` are taken. -/
structure Steady (F : Finset Slot) (w : CWorld κ υ) : Prop where
  latched : Latched w
  bare : ∀ p, w.user.runtime = some p → Bare p w
  held : w.user.runtimeStarted = false ∨ w.user.faulted = true → Held F [] w

/-- The operation is in order: a request by the program finds what is registered in the
operational machine's current state, a start, a check and a call on the operational
machine meet the monitor, and a runtime installed over another finds nothing
registered. -/
def OpOk (prog : Program κ υ) (F : Finset Slot) (l : FaultController.Label κ υ) : Prop :=
  match l.2 with
  | .requestFault _ => ∀ p, Runs p l.1 → l.1.user.faulted = false →
    Held F (operationalState p l.1) l.1
  | .installRuntime _ => l.1.user.runtime ≠ none → Held F [] l.1
  | .start => ∀ p, l.1.user.runtime = some p → l.1.user.runtimeStarted = false →
    l.1.user.faulted = false →
    StartMeets (outerHooks prog) (monitor prog F p) p.runtimeMachine p.addr (setRuntimeStarted l.1)
  | .checkTransitions _ => ∀ p, Runs p l.1 → l.1.user.faulted = false →
    CheckMeets (outerHooks prog) (monitor prog F p) p.runtimeMachine p.addr l.1
  | .operational p op => Runs p l.1 ∧ OperationalMeets prog F p op l.1
  | .registerFaultPropagation _ _ => True

theorem Steady.inv (h : Steady F w) (hrun : w.user.runtime = some p) : Inv F p w none w :=
  ⟨⟨h.latched, .refl w⟩, h.bare p hrun, fun hf => h.held (.inr hf)⟩

theorem Inv.steady {v : CWorld κ υ} (hrun : Runs p v) (h : Inv F p v none w) : Steady F w := by
  refine ⟨h.agrees.1, fun q hq => ?_, fun hs => ?_⟩
  · cases (Agrees.runs h.agrees hrun).runtime.symm.trans hq
    exact h.bare
  · rcases hs with hs | hf
    · exact absurd ((Agrees.runs h.agrees hrun).started.symm.trans hs) nofun
    · exact h.held hf

theorem Steady.congr {v : CWorld κ υ} (h : Steady F w) (hl : Latched v)
    (hr : v.user.runtime = w.user.runtime) (hs : v.user.runtimeStarted = w.user.runtimeStarted)
    (hf : v.user.faulted = w.user.faulted) (hc : v.cyclicActions = w.cyclicActions)
    (hsched : v.sched = w.sched) : Steady F v :=
  ⟨hl, fun p hp => bare_of_eq (h.bare p (hr ▸ hp)) hc,
    fun hsf => (h.held (hs ▸ hf ▸ hsf)).congr hc hsched⟩

theorem requestFault_steady (c : κ) (h : Steady F w)
    (hok : ∀ p, Runs p w → w.user.faulted = false → Held F (operationalState p w) w) :
    Steady F (requestFault prog c w) := by
  obtain ⟨hl, ha⟩ := @requestFault_latched _ _ prog c _ h.latched
  cases hf : w.user.faulted with
  | true =>
    rw [requestAgain_eq prog c hf] at hl ⊢
    exact h.congr hl rfl rfl rfl rfl rfl
  | false =>
    cases hrt : w.user.runtime with
    | none =>
      have hheld := h.held (.inl (h.latched.started hrt))
      rw [requestFault_first prog c hf,
        switchToFault_none (w := latch c (recordRequest c w)) hrt] at hl ⊢
      exact ⟨hl, fun p hp => absurd (hrt.symm.trans hp) nofun, fun _ => hheld.congr rfl rfl⟩
    | some p =>
      cases hs : w.user.runtimeStarted with
      | false =>
        have hheld := h.held (.inl hs)
        rw [requestFault_first prog c hf,
          switchToFault_rebuild (w := latch c (recordRequest c w)) hrt hs] at hl ⊢
        refine ⟨hl, fun q hq => ?_, fun _ => ?_⟩
        · cases hq
          exact bare_rebuilt (w := w) rfl
        · exact held_rebuilt (p := p) hheld rfl rfl
      | true =>
        have hrun : Runs p w := ⟨hrt, hs⟩
        have hclear := @requestFault_first_clear _ _ prog _ _ [] _ c h.latched hrun hf
          (h.bare p hrt) (by simpa using hok p hrun hf)
        refine ⟨hl, fun q hq => ?_, fun _ => hclear.held⟩
        cases (ha.runtime.trans hrt).symm.trans hq
        exact hclear.bare

theorem start_steady (h : Steady F w)
    (hok : ∀ p, w.user.runtime = some p → w.user.runtimeStarted = false →
      w.user.faulted = false → StartMeets (outerHooks prog) (monitor prog F p) p.runtimeMachine
        p.addr (setRuntimeStarted w)) : Steady F (start prog w) := by
  cases hrt : w.user.runtime with
  | none =>
    have : start prog w = w := by
      unfold start
      rw [hrt]
    rwa [this]
  | some p =>
    cases hs : w.user.runtimeStarted with
    | true =>
      have : start prog w = w := by
        unfold start
        rw [hrt]
        exact if_pos hs
      rwa [this]
    | false =>
      have hheld := h.held (.inl hs)
      have hrun : start prog w =
          p.runtimeMachine.start (outerHooks prog) p.addr (setRuntimeStarted w) := by
        unfold start
        rw [hrt]
        exact if_neg (by rw [hs]; nofun)
      have hruns : Runs p (setRuntimeStarted w) := ⟨hrt, rfl⟩
      cases hf : w.user.faulted with
      | false =>
        have hlw : Latched (setRuntimeStarted w) := setRuntimeStarted_latched h.latched hrt hf
        have hinv : Inv F p (setRuntimeStarted w) none (setRuntimeStarted w) :=
          ⟨⟨hlw, .refl _⟩, h.bare p hrt, fun _ => hheld.congr rfl rfl⟩
        rw [hrun]
        exact (startOperational_inv hinv hruns hf (hok p hrt hs hf)).steady hruns
      | true =>
        have hserve := serving_started h.latched hf hrt hs
        have henter := @enterFault_serving _ _ prog (requestFault prog) _ _ _
          ((setRuntimeStarted w).setCalledStart p.addr)
          (fun _ _ => requestFault_serving) (hserve.congr rfl rfl)
        have hclear : Clear F p [] (setRuntimeStarted w) :=
          ⟨hf, h.bare p hrt, hheld.congr rfl rfl⟩
        have hend := @startFault_clear _ _ prog _ _ _ _ hclear henter.state
        have hserved := @startFault_serving _ _ prog _ _ _ hserve
        rw [hrun]
        refine ⟨hserved.latched rfl, fun q hq => ?_, fun _ => hend.held⟩
        cases hserved.runtime.symm.trans hq
        exact hend.bare

theorem checkTransitions_steady (nowUs : BitVec 64) (h : Steady F w)
    (hok : ∀ p, Runs p w → w.user.faulted = false →
      CheckMeets (outerHooks prog) (monitor prog F p) p.runtimeMachine p.addr w) :
    Steady F (checkTransitions prog nowUs w) := by
  unfold checkTransitions
  split
  next p hrt =>
    split
    next => exact h
    next hs =>
      have hrun : Runs p w := ⟨hrt, by simpa using hs⟩
      have hsteady := (checkRuntime_inv (h.inv hrt) hrun (hok p hrun)).steady hrun
      dsimp only
      split
      · exact hsteady.congr (propagateFault_latched { hsteady.latched with }) rfl rfl rfl rfl rfl
      · exact hsteady
  next => exact h

theorem around_steady {v : CWorld κ υ} (h : Steady F w) (hv : Around w v)
    (hel : Elapsed w.sched v.sched) : Steady F v := by
  have huser : v.user = { w.user with program := v.user.program } := congrArg World.user hv
  have hcyc : v.cyclicActions = w.cyclicActions := by
    rw [hv]
  refine ⟨around_latched hv h.latched, fun p hp => bare_of_eq (h.bare p ?_) hcyc, fun hs => ?_⟩
  · rw [huser] at hp
    exact hp
  · rw [huser] at hs
    exact hel.held hcyc (h.held hs)

variable [Inhabited κ]

/-- **An operation in order** ends steady. -/
theorem op_steady {l : FaultController.Label κ υ} (h : Steady F l.1) (hok : OpOk prog F l) :
    Steady F (l.2.run prog l.1) := by
  obtain ⟨v, op⟩ := l
  cases op with
  | requestFault c => exact requestFault_steady c h hok
  | installRuntime p =>
    have hheld : Held F [] v := by
      by_cases hnone : v.user.runtime = none
      · exact h.held (.inl (h.latched.started hnone))
      · exact hok hnone
    refine ⟨installRuntime_latched p h.latched, fun q hq => ?_, fun _ => ?_⟩
    · cases hq
      exact bare_rebuilt (w := v) rfl
    · exact held_rebuilt (p := p) hheld rfl rfl
  | start => exact start_steady h hok
  | checkTransitions nowUs => exact checkTransitions_steady nowUs h hok
  | operational p op =>
    obtain ⟨hrun, hm⟩ := hok
    exact (callOperational_inv hrun op hm (h.inv hrun.runtime)).steady hrun
  | registerFaultPropagation socket faultOrder =>
    have hl := @op_latched _ _ prog _ (.registerFaultPropagation socket faultOrder) _ h.latched
    refine h.congr hl ?_ ?_ ?_ rfl rfl <;>
      simp only [FaultOp.run, registerFaultPropagation, mapUser] <;> split <;> rfl

/-- A step of the controller, with time passing before it. -/
def TimedStep (prog : Program κ υ) (w : CWorld κ υ) (l : FaultController.Label κ υ)
    (w' : CWorld κ υ) : Prop :=
  FaultController.Step prog w l w' ∧ Elapsed w.sched l.1.sched

/-! ## Main results -/

/-- **No operational activity in `FAULT`**: in every state of a run in order in which
the runtime is in `FAULT`, no cyclic action is registered and only the slots `F` of
others are taken. -/
theorem fault_quiet {w₀ w : CWorld κ υ} (h0 : Fresh w₀) (hheld : Held F [] w₀)
    {ls : List (FaultController.Label κ υ)}
    (r : Run (TimedStep prog) (fun _ l => OpOk prog F l) w₀ ls w) (hf : isFaulted w = true) :
    (∀ p, w.user.runtime = some p → w.currentState p.addr = RuntimeState.fault.toNat) ∧
    (∀ π s, ∀ a ∈ w.cyclicActions π s, a.isOn = false) ∧
    ∀ i, w.sched.isFree i = false ↔ i ∈ F := by
  have hl0 := fresh_latched h0
  have hsteady : Steady F w := by
    refine r.invariant ⟨hl0, fun p hp => ?_, fun _ => hheld⟩ ?_
    · unfold Fresh at h0
      rw [h0] at hp
      cases hp
    · rintro t ⟨v, op⟩ u ht hok ⟨⟨hv, rfl⟩, hel⟩
      exact op_steady (around_steady ht hv hel) hok
  have hend := hsteady.held (.inr hf)
  refine ⟨fun p hp => ?_, fun π s => hend.off (π, s) List.not_mem_nil, fun i => ?_⟩
  · rw [hsteady.latched.state p hp, show w.user.faulted = true from hf]
    rfl
  · rw [hend.taken i]
    simp [heldSlots]

/-- A program whose one action requests a fault. -/
def faultingProgram : Program Nat Unit where
  action _ := [fun _ => (some 7, ())]
  guard _ := ([], fun _ => false)
  panicCause _ := 0

/-- Nothing started; state 0 of the operational machine at `[0, 0]` has a cyclic action. -/
def cyclicWorld : CWorld Nat Unit where
  currentState _ := 0
  cyclicActions π s := if π = [0, 0] ∧ s = 0 then [{ action := some 2, period := 5#32 }] else []
  sched := initial
  user := { latchedCause := default, program := () }

theorem cyclicWorld_held : Held ∅ [] cyclicWorld := by
  refine ⟨.nil, fun x _ a ha => ?_, by simp, .nil, by simp, fun i => ?_, [], Consistent.initial⟩
  · simp only [cyclicWorld] at ha
    split at ha
    · cases List.mem_singleton.mp ha
      rfl
    · cases ha
  · have : initial.isFree i = true := by revert i; decide
    simp [cyclicWorld, heldSlots, this]

/-- A policy with an operational machine of one state, with the given enter actions. -/
def oneStatePolicy (actions : List (Option Callback))
    (hown : some onFaultStateEnter ∉ actions) : Policy where
  place := 0
  operationalMachine := some (.mk { states := [{ onEnterActions := actions }] } .nil)
  own m hm := by
    cases hm
    refine ⟨fun st hst c hc he => ?_, trivial⟩
    cases List.mem_singleton.mp hst
    rcases hc with hc | hc
    · exact hown (he ▸ hc)
    · cases hc

/-- The runtime of a machine with one cyclic action, started: it holds the action. -/
theorem started_held (p : Policy) (hp : p = oneStatePolicy [] (by simp)) :
    let w := start faultingProgram (installRuntime p cyclicWorld)
    Held ∅ [(p.operationalAddr, 0)] w ∧ w.user.runtime = some p ∧
      w.currentState p.operationalAddr = 0 := by
  let w₁ := setRuntimeStarted (installRuntime p cyclicWorld)
  let u := (w₁.setCalledStart p.addr).log (.entered p.addr 0)
  let e := registerAllTimedActions (outerHooks faultingProgram) p.addr 0 u
  let v := (e.setCalledStart p.operationalAddr).log (.entered p.operationalAddr 0)
  have he : e = u := by
    refine register_null _ fun a ha => ?_
    rw [show u.cyclicActions p.addr 0 = [] from bare_rebuilt (w := cyclicWorld) rfl 0] at ha
    cases ha
  have hu : Held ∅ [] u := held_rebuilt (p := p) cyclicWorld_held rfl rfl
  have hv : Held ∅ [] v := by
    rw [← he] at hu
    exact hu.congr rfl rfl
  have hable : Registrable (v.cyclicActions p.operationalAddr 0) v.sched := by
    subst hp
    unfold Registrable Accepted
    decide +kernel
  obtain ⟨hheld, -, -, -, hframe⟩ := hv.register (outerHooks faultingProgram) List.not_mem_nil hable
  have henter : p.runtimeMachine.enter (outerHooks faultingProgram) p.addr
      (w₁.setCalledStart p.addr) = e := by
    subst hp
    rfl
  have hstart : start faultingProgram (installRuntime p cyclicWorld) =
      (registerAllTimedActions (outerHooks faultingProgram) p.operationalAddr 0 v).setCalledStart
        p.operationalAddr := by
    show p.runtimeMachine.start (outerHooks faultingProgram) p.addr w₁ = _
    rw [start_eq, henter, show e.currentState p.addr = 0 from by rw [he]; subst hp; rfl]
    subst hp
    rfl
  dsimp only
  rw [hstart]
  refine ⟨hheld.congr rfl rfl, ?_, ?_⟩
  · show (registerAllTimedActions _ _ _ v).user.runtime = _
    rw [hframe]
    show e.user.runtime = _
    rw [he]
    rfl
  · show (registerAllTimedActions _ _ _ v).currentState _ = _
    rw [hframe]
    show e.currentState _ = _
    rw [he]
    subst hp
    rfl

/-- A machine started in order, and a fault requested after it. -/
theorem fault_quiet_requested :
    let p := oneStatePolicy [] (by simp)
    let w := requestFault faultingProgram 7 (start faultingProgram (installRuntime p cyclicWorld))
    ∀ π s, ∀ a ∈ w.cyclicActions π s, a.isOn = false := by
  intro p w
  let w₁ := installRuntime p cyclicWorld
  let w₂ := start faultingProgram w₁
  have around : ∀ v : CWorld Nat Unit, Around v v := fun _ => rfl
  obtain ⟨hheld, hrt, hcur⟩ := started_held p rfl
  have r : Run (TimedStep faultingProgram) (fun _ l => OpOk faultingProgram ∅ l) cyclicWorld
      [(cyclicWorld, .installRuntime p), (w₁, .start), (w₂, .requestFault 7)] w := by
    refine .cons (fun h => absurd rfl h) ⟨⟨around _, rfl⟩, .refl _⟩
      (.cons ?_ ⟨⟨around _, rfl⟩, .refl _⟩ (.single ?_ ⟨⟨around _, rfl⟩, .refl _⟩))
    · intro q hq _ _
      cases hq
      have hglobal : (setRuntimeStarted w₁).user.faulted = false := rfl
      refine ⟨⟨trivial, ?_, ?_⟩, ⟨trivial, ?_, ?_⟩, trivial⟩ <;> intro hf
      · exact absurd hf (by decide +kernel)
      · exact fun hr => absurd hr (by decide +kernel)
      · exact absurd hf (by decide +kernel)
      · exact fun hr => absurd hr (by decide +kernel)
    · intro q hq _
      cases hrt.symm.trans hq.runtime
      show Held ∅ [(p.operationalAddr, w₂.currentState p.operationalAddr)] w₂
      rw [hcur]
      exact hheld
  exact (@fault_quiet _ _ _ _ _ cyclicWorld _ rfl cyclicWorld_held _ r (by decide +kernel)).2.1

/-- **A fault requested on entry** leaves the cyclic action of the state entered
registered. -/
theorem fault_not_quiet :
    ¬ ∀ (prog : Program Nat Unit) (p : Policy) (w₀ : CWorld Nat Unit), Fresh w₀ → Held ∅ [] w₀ →
      isFaulted (start prog (installRuntime p w₀)) = true →
      ∀ π s, ∀ a ∈ (start prog (installRuntime p w₀)).cyclicActions π s, a.isOn = false := by
  intro h
  have := h faultingProgram (oneStatePolicy [some 1] (by decide)) cyclicWorld rfl cyclicWorld_held
    (by decide +kernel) [0, 0] 0
  revert this
  decide +kernel

end StLib.Protections.FaultQuiet
