import StLib.Base.Runs
import StLib.Protections.FaultRequest

/-! # The fault latch

Requests of faults come from the program, from the guards and actions of the
operational machine and from `PANIC`, before and after a runtime is installed and
started. Whatever the order, a fault stays latched until a runtime is installed over
another, and while it is there no operation of the controller enters a state but
`FAULT` (`fault_latch`). -/
namespace StLib.Protections.FaultLatch

open StLib.Base.Runs
open StLib.Scheduler.Model StLib.StateMachine.Model StLib.StateMachine.Rules
open StLib.Protections.FaultController StLib.Protections.FaultRequest

variable {κ υ : Type} {prog : Program κ υ}

/-! ## Activity of an operational machine -/

/-- The latch agrees, and nothing but requests has happened since `w₀`. -/
def Agrees (w₀ w : CWorld κ υ) : Prop := Latched w ∧ After w₀ w

variable {w₀ : CWorld κ υ}

theorem Agrees.program (x : υ) {w : CWorld κ υ} (h : Agrees w₀ w) :
    Agrees w₀ (mapUser (fun u => { u with program := x }) w) :=
  ⟨{ h.1 with }, h.2.runtime, h.2.started, h.2.requested⟩

theorem Agrees.request (c : κ) {w : CWorld κ υ} (h : Agrees w₀ w) :
    Agrees w₀ (requestFault prog c w) := by
  obtain ⟨hl, ha⟩ := @requestFault_latched _ _ prog c _ h.1
  exact ⟨hl, h.2.trans ((after_recordRequest c w).trans ha)⟩

/-- What the latch reads is the user part and the states of the global machines. -/
theorem Agrees.congr {w v : CWorld κ υ} (h : Agrees w₀ w) (hu : v.user = w.user)
    (hc : ∀ p : Policy, v.currentState p.addr = w.currentState p.addr) : Agrees w₀ v := by
  obtain ⟨hl, ha⟩ := h
  refine ⟨⟨hu ▸ hl.faulted, hu ▸ hl.hasCause, hu ▸ hl.cause, ?_, hu ▸ hl.entries,
    hu ▸ hl.started⟩, hu ▸ ha.runtime, hu ▸ ha.started, hu ▸ ha.requested⟩
  intro p hp
  rw [hc p, hu]
  exact hl.state p (hu ▸ hp)

theorem keepsStates_agrees : KeepsStates (outerHooks prog) {} (· ≠ onFaultStateEnter)
    fun _ => Agrees w₀ where
  weaken _ _ h := h
  action _ d w hd _ h := by
    simp only [outerHooks, hooks, if_neg hd]
    exact runActs_rule (fun x _ => Agrees.program x) (fun c _ => Agrees.request c) h
  entered _ _ _ h := h.congr rfl fun _ => rfl
  register _ _ _ _ h := registerAllTimedActions_rule (fun _ _ => h.congr rfl fun _ => rfl)
    fun _ _ => Agrees.request _
  unregister _ _ _ h := h.congr rfl fun _ => rfl
  addStateOrders _ _ h := h.program _
  removeStateOrders _ _ h := h.program _

theorem operationalAddr_length {p : Policy} {ρ : Addr} (h : p.operationalAddr <:+ ρ) :
    2 ≤ ρ.length := h.length_le

theorem addr_ne_of_suffix {p q : Policy} {ρ : Addr} (h : p.operationalAddr <:+ ρ) :
    q.addr ≠ ρ := by
  rintro rfl
  exact absurd (operationalAddr_length h) (Nat.not_succ_le_self 1)

/-- The operational machine of a policy keeps the latch in agreement. -/
theorem keeps_agrees (p : Policy) : Keeps p.operationalAddr (outerHooks prog) {}
    (· ≠ onFaultStateEnter) fun _ => Agrees w₀ where
  toKeepsStates := keepsStates_agrees
  still d w ρ hρ := by
    have hreq : ∀ c (v : CWorld κ υ), v.currentState ρ = w.currentState ρ →
        (requestFault prog c v).currentState ρ = w.currentState ρ := fun c v hv =>
      (requestFault_still c v (operationalAddr_length hρ)).trans hv
    show (if _ then _ else _ : CWorld κ υ).currentState ρ = _
    split
    · exact runFaultStateEnter_rule (P := fun v => v.currentState ρ = w.currentState ρ)
        (fun _ _ h => h) hreq (fun _ h => h) rfl
    · exact runActs_rule (P := fun v => v.currentState ρ = w.currentState ρ)
        (fun _ _ h => h) hreq rfl
  predicate g w _ h :=
    runActs_rule (fun x _ => Agrees.program x) (fun c _ => Agrees.request c) h
  panic msg w _ h := Agrees.request _ h
  current π s w hπ h :=
    h.congr rfl fun q => Function.update_of_ne (addr_ne_of_suffix hπ) ..
  started π w _ h := h.congr rfl fun _ => rfl

theorem callOperational_agrees (p : Policy) (op : MachineOp) {w : CWorld κ υ}
    (h : Agrees w₀ w) : Agrees w₀ (callOperational prog p op w) := by
  have hk := @keeps_agrees _ _ prog w₀ p
  unfold callOperational
  split
  next m hm =>
    have hu := p.own m hm
    cases op with
    | start => exact start_rule hk hu (List.suffix_refl _) (start_free monitor_free _ _ _) h
    | checkTransitions =>
      exact checkTransitions_rule hk hu (List.suffix_refl _) (check_free monitor_free _ _ _) h
    | forceChangeState s =>
      exact performStateChange_rule hk hu (List.suffix_refl _) (change_free monitor_free _ _ _ _) h
  next => exact h

/-! ## Operations of the controller -/

theorem uses_default {A : Callback → Prop} : StateUses A {} :=
  fun _ hc => hc.elim (absurd · List.not_mem_nil) (absurd · List.not_mem_nil)

theorem markStarted_agrees {w v : CWorld κ υ} (nested : Nested) (π : Addr) (h : Agrees w v) :
    Agrees w (nested.markStarted π v) := by
  cases nested with
  | nil => exact h
  | cons => exact h.congr rfl fun _ => rfl

/-- Starting in `OPERATIONAL`. -/
theorem startOperational_latched {w : CWorld κ υ} {p : Policy} (h : Latched w)
    (hrt : w.user.runtime = some p) (hf : w.user.faulted = false) :
    Agrees w (p.runtimeMachine.start (outerHooks prog) p.addr w) := by
  have hcur : w.currentState p.addr = RuntimeState.operational.toNat := by
    rw [h.state p hrt, hf]
    rfl
  have hmark : Agrees w (w.setCalledStart p.addr) := ⟨{ h with }, rfl, rfl, List.prefix_refl _⟩
  have henter : Agrees w (p.runtimeMachine.enter (outerHooks prog) p.addr
      (w.setCalledStart p.addr)) := by
    refine enterState_rule (P := fun _ => Agrees w) keepsStates_agrees ?_
      (enter_free monitor_free _ _ _ _) hmark
    rw [show (w.setCalledStart p.addr).currentState p.addr = _ from hcur]
    exact uses_default
  rw [start_eq]
  refine markStarted_agrees _ _ ?_
  generalize p.runtimeMachine.enter (outerHooks prog) p.addr (w.setCalledStart p.addr) = v at henter
  have hstate := henter.1.state p (henter.2.runtime.trans hrt)
  cases hfv : v.user.faulted with
  | true =>
    rw [hfv] at hstate
    rw [hstate]
    simp only [if_true, bound_fault]
    exact henter
  | false =>
    rw [hfv] at hstate
    rw [hstate]
    simp only [Bool.false_eq_true, if_false, bound_operational]
    cases hm : p.operationalMachine with
    | none => exact henter
    | some m =>
      exact start_rule (keeps_agrees p) (p.own m hm) (List.suffix_refl _)
        (start_free monitor_free _ _ _) henter

theorem requestFault_serving {c : κ} {p : Policy} {s : RuntimeState} {n : Nat} (d : κ)
    (w : CWorld κ υ) (h : Serving c p s n w) : Serving c p s n (requestFault prog d w) := by
  rw [requestAgain_eq prog d h.faulted]
  exact requestAgain_serving h

/-- Starting in `FAULT`. -/
theorem startFault_serving {w : CWorld κ υ} {c : κ} {p : Policy} (h : Serving c p .fault 0 w) :
    Serving c p .fault (if p.onFaultEnter.isSome then 1 else 0)
      (p.runtimeMachine.start (outerHooks prog) p.addr w) := by
  have henter := @enterFault_serving _ _ prog (requestFault prog) _ _ _
    (w.setCalledStart p.addr) (fun _ _ => requestFault_serving) (h.congr rfl rfl)
  rw [Nat.zero_add] at henter
  rw [start_eq]
  change Serving c p .fault _ (p.runtimeMachine.enter (outerHooks prog) p.addr _) at henter
  rw [henter.state, bound_fault]
  cases p.runtimeMachine.nested with
  | nil => exact henter
  | cons => exact henter.congr rfl rfl

theorem latched_first {w : CWorld κ υ} (h : Latched w) (hf : w.user.faulted = true) :
    [w.user.latchedCause] <+: w.user.requested := by
  cases hl : w.user.requested with
  | nil =>
    have := h.faulted
    rw [hf, hl] at this
    cases this
  | cons d l =>
    rw [h.cause d (by rw [hl]; rfl)]
    exact ⟨l, rfl⟩

/-- A start in `FAULT` finds the first cause being served. -/
theorem serving_started {w : CWorld κ υ} {p : Policy} (h : Latched w) (hf : w.user.faulted = true)
    (hrt : w.user.runtime = some p) (hs : w.user.runtimeStarted = false) :
    Serving w.user.latchedCause p .fault 0
      (setRuntimeStarted w) := by
  refine ⟨hf, h.hasCause.trans hf, rfl, latched_first h hf, hrt, rfl, ?_, ?_⟩
  · exact (h.state p hrt).trans (by rw [hf]; rfl)
  · exact h.entries.trans (if_neg fun hh => Bool.false_ne_true (hs.symm.trans hh.2.1))

theorem setRuntimeStarted_latched {w : CWorld κ υ} {p : Policy} (h : Latched w)
    (hrt : w.user.runtime = some p) (hf : w.user.faulted = false) :
    Latched (setRuntimeStarted w) := by
  refine { h with entries := ?_, started := fun hn => absurd (hrt.symm.trans hn) nofun }
  have hzero := h.entries.trans (if_neg fun hh => Bool.false_ne_true (hf.symm.trans hh.1))
  exact hzero.trans (if_neg fun hh => Bool.false_ne_true (hf.symm.trans hh.1)).symm

theorem start_latched {w : CWorld κ υ} (h : Latched w) : Latched (start prog w) := by
  unfold start
  split
  next p hrt =>
    split
    next => exact h
    next hs =>
      rw [Bool.not_eq_true] at hs
      cases hf : w.user.faulted with
      | false =>
        exact (startOperational_latched (setRuntimeStarted_latched h hrt hf) hrt hf).1
      | true =>
        exact (startFault_serving (serving_started h hf hrt hs)).latched rfl
  next => exact h

theorem takeTransition_runtime (h : Hooks (Controller κ υ)) {p : Policy} {w : CWorld κ υ}
    (s : RuntimeState) (hs : w.currentState p.addr = s.toNat) :
    p.runtimeMachine.takeTransition h p.addr w = w := by
  have hslice : p.runtimeMachine.slice (w.currentState p.addr) = [] := by
    rw [hs]
    cases s <;> rfl
  unfold Machine.takeTransition
  rw [hslice]
  rfl

theorem checkRuntime_agrees {w : CWorld κ υ} {p : Policy} (h : Latched w)
    (hrt : w.user.runtime = some p) :
    Agrees w (p.runtimeMachine.checkTransitions (outerHooks prog) p.addr w) := by
  have hw : Agrees w w := ⟨h, .refl w⟩
  have hstate := h.state p hrt
  cases hs : w.calledStart p.addr with
  | false =>
    rw [Policy.runtimeMachine, Machine.checkTransitions, if_pos (by rw [hs]; rfl)]
    exact hw.request _
  | true =>
    rw [checkTransitions_eq _ _ _ _ hs, takeTransition_runtime _ _ hstate, hstate]
    cases hf : w.user.faulted with
    | true =>
      simp only [if_true, bound_fault]
      exact hw
    | false =>
      simp only [Bool.false_eq_true, if_false, bound_operational]
      cases hm : p.operationalMachine with
      | none => exact hw
      | some m =>
        exact checkTransitions_rule (keeps_agrees p) (p.own m hm) (List.suffix_refl _)
          (check_free monitor_free _ _ _) hw

theorem checkTransitions_agrees (nowUs : BitVec 64) {w : CWorld κ υ} (h : Latched w) :
    Agrees w (checkTransitions prog nowUs w) := by
  unfold checkTransitions
  split
  next p hrt =>
    split
    next => exact ⟨h, .refl w⟩
    next =>
      obtain ⟨hl, ha⟩ := @checkRuntime_agrees _ _ prog _ _ h hrt
      dsimp only
      split
      · exact ⟨propagateFault_latched { hl with }, ha.runtime, ha.started, ha.requested⟩
      · exact ⟨hl, ha⟩
  next => exact ⟨h, .refl w⟩

theorem installRuntime_latched [Inhabited κ] (p : Policy) {w : CWorld κ υ} (h : Latched w) :
    Latched (installRuntime p w) := by
  -- a latched fault is preserved exactly when no runtime is installed
  have hpreserve : (w.user.runtime.isNone && !w.user.runtimeStarted && w.user.faulted &&
      w.user.hasLatchedCause) = (w.user.runtime.isNone && w.user.faulted) := by
    cases hrt : w.user.runtime with
    | some q => rfl
    | none =>
      rw [h.started hrt, h.hasCause]
      simp
  unfold installRuntime
  dsimp only
  rw [hpreserve]
  refine ⟨?_, rfl, fun c hc => ?_, fun q hq => ?_, ?_, nofun⟩
  · show (w.user.runtime.isNone && w.user.faulted) =
      !(if w.user.runtime.isSome then [] else w.user.requested).isEmpty
    cases w.user.runtime with
    | some q => rfl
    | none => exact h.faulted
  · change (if w.user.runtime.isSome then [] else w.user.requested).head? = some c at hc
    show (if w.user.runtime.isNone && w.user.faulted then w.user.latchedCause else default) = c
    cases hrt : w.user.runtime with
    | some q => rw [hrt] at hc; cases hc
    | none =>
      rw [hrt] at hc
      have hf : w.user.faulted = true := by
        rw [h.faulted]
        cases hl : w.user.requested with
        | nil => rw [hl] at hc; cases hc
        | cons => rfl
      rw [hf]
      exact h.cause c hc
  · cases hq
    show Function.update _ p.addr _ p.addr = _
    rw [Function.update_self]
    rfl
  · show (if w.user.runtime.isSome then 0 else w.user.faultEntries) = _
    have hnot : ¬ ((w.user.runtime.isNone && w.user.faulted) = true ∧ false = true ∧
        ((some p).bind Policy.onFaultEnter).isSome = true) := fun hh => Bool.false_ne_true hh.2.1
    refine Eq.trans ?_ (if_neg hnot).symm
    cases hrt : w.user.runtime with
    | some q => rfl
    | none =>
      refine h.entries.trans (if_neg fun hh => ?_)
      exact Bool.false_ne_true ((h.started hrt).symm.trans hh.2.1)

/-! ## What happens while a fault is latched -/

/-- A fault is latched, the requests of `w` come first, and the states entered and
exited are `t`. -/
structure Quiet (t : List Event) (w v : CWorld κ υ) : Prop where
  faulted : v.user.faulted = true
  requested : w.user.requested <+: v.user.requested
  trace : v.trace = t

theorem requestFault_quiet {t : List Event} {w v : CWorld κ υ} (c : κ) (h : Quiet t w v) :
    Quiet t w (requestFault prog c v) := by
  rw [requestAgain_eq prog c h.faulted]
  exact { h with requested := h.requested.trans (List.prefix_append _ _) }

/-- **A start in `FAULT`** enters that state and no other. -/
theorem start_quiet {w : CWorld κ υ} {p : Policy} (h : Latched w) (hf : w.user.faulted = true)
    (hrt : w.user.runtime = some p) (hs : w.user.runtimeStarted = false) :
    Quiet (w.trace ++ [.entered p.addr RuntimeState.fault.toNat]) w (start prog w) := by
  have hserve := serving_started h hf hrt hs
  have hrun : start prog w = p.runtimeMachine.start (outerHooks prog) p.addr
      (setRuntimeStarted w) := by
    unfold start
    rw [hrt]
    exact if_neg (by rw [hs]; nofun)
  have henter := @enterFault_serving _ _ prog (requestFault prog) _ _ _
    ((setRuntimeStarted w).setCalledStart p.addr)
    (fun _ _ => requestFault_serving) (hserve.congr rfl rfl)
  change Serving _ p .fault _ (p.runtimeMachine.enter (outerHooks prog) p.addr _) at henter
  have hquiet : Quiet (w.trace ++ [.entered p.addr RuntimeState.fault.toNat]) w
      (p.runtimeMachine.enter (outerHooks prog) p.addr
        ((setRuntimeStarted w).setCalledStart p.addr)) := by
    unfold Machine.enter
    rw [show ((setRuntimeStarted w).setCalledStart p.addr).currentState p.addr = _ from hserve.state]
    refine registerAllTimedActions_rule ?_ fun _ _ => requestFault_quiet _
    suffices hact : Quiet (w.trace ++ [.entered p.addr RuntimeState.fault.toNat]) w
        (runFaultStateEnter prog (requestFault prog) (World.log
          ((setRuntimeStarted w).setCalledStart p.addr)
          (.entered p.addr RuntimeState.fault.toNat))) from fun _ _ => { hact with }
    exact runFaultStateEnter_rule (fun _ _ h => { h with }) (fun c _ => requestFault_quiet c)
      (fun _ h => { h with }) ⟨hf, List.prefix_refl _, rfl⟩
  rw [hrun, start_eq, henter.state, bound_fault]
  cases p.runtimeMachine.nested with
  | nil => exact hquiet
  | cons => exact { hquiet with }

theorem checkTransitions_quiet (nowUs : BitVec 64) {w : CWorld κ υ} (h : Latched w)
    (hf : w.user.faulted = true) : Quiet w.trace w (checkTransitions prog nowUs w) := by
  have hw : Quiet w.trace w w := ⟨hf, List.prefix_refl _, rfl⟩
  unfold checkTransitions
  split
  next p hrt =>
    split
    next => exact hw
    next =>
      have hcheck : Quiet w.trace w
          (p.runtimeMachine.checkTransitions (outerHooks prog) p.addr w) := by
        have hstate : w.currentState p.addr = RuntimeState.fault.toNat := by
          rw [h.state p hrt, hf]
          rfl
        cases hs : w.calledStart p.addr with
        | false =>
          rw [Policy.runtimeMachine, Machine.checkTransitions, if_pos (by rw [hs]; rfl)]
          exact requestFault_quiet _ hw
        | true =>
          rw [checkTransitions_eq _ _ _ _ hs, takeTransition_runtime _ _ hstate, hstate,
            bound_fault]
          exact hw
      dsimp only
      split
      · exact { hcheck with }
      · exact hcheck
  next => exact hw

/-! ## Runs -/

/-- A runtime is installed over another. -/
def Reinstalls (w : CWorld κ υ) : FaultOp κ → Prop
  | .installRuntime _ => w.user.runtime.isSome = true
  | _ => False

/-- A call on an operational machine, past the controller. -/
def FaultOp.isOperational : FaultOp κ → Bool
  | .operational _ _ => true
  | _ => false

theorem around_latched {w v : CWorld κ υ} (hv : Around w v) (h : Latched w) : Latched v := by
  unfold Around at hv
  rw [hv]
  exact { h with }

variable [Inhabited κ]

/-- **An operation** keeps the latch in agreement. -/
theorem op_latched (op : FaultOp κ) {w : CWorld κ υ} (h : Latched w) : Latched (op.run prog w) := by
  cases op with
  | requestFault c => exact (requestFault_latched c h).1
  | installRuntime p => exact installRuntime_latched p h
  | start => exact start_latched h
  | checkTransitions nowUs => exact (checkTransitions_agrees nowUs h).1
  | operational p op => exact (callOperational_agrees p op ⟨h, .refl w⟩).1
  | registerFaultPropagation socket faultOrder =>
    show Latched (registerFaultPropagation socket faultOrder w)
    unfold registerFaultPropagation mapUser
    dsimp only
    split <;> exact { h with }

/-- While a fault is latched, an operation of the controller enters no state, unless it
starts the runtime, in `FAULT`. -/
theorem op_quiet {op : FaultOp κ} {w : CWorld κ υ} (h : Latched w) (hf : w.user.faulted = true)
    (hop : ¬ Reinstalls w op) (hout : FaultOp.isOperational op = false) :
    Quiet w.trace w (op.run prog w) ∨ op = .start ∧ ∃ p, w.user.runtime = some p ∧
      Quiet (w.trace ++ [.entered p.addr RuntimeState.fault.toNat]) w (op.run prog w) := by
  have hw : Quiet w.trace w w := ⟨hf, List.prefix_refl _, rfl⟩
  cases op with
  | requestFault c => exact .inl (requestFault_quiet c hw)
  | installRuntime p =>
    have hnone : w.user.runtime = none := by simpa [Reinstalls] using hop
    have hhas : w.user.hasLatchedCause = true := h.hasCause.trans hf
    refine .inl ⟨?_, ?_, rfl⟩
    · show (w.user.runtime.isNone && !w.user.runtimeStarted && w.user.faulted &&
        w.user.hasLatchedCause) = true
      rw [hnone, h.started hnone, hf, hhas]
      rfl
    · show w.user.requested <+: if w.user.runtime.isSome then [] else w.user.requested
      rw [hnone]
      exact List.prefix_refl _
  | start =>
    cases hrt : w.user.runtime with
    | none =>
      left
      show Quiet _ w (start prog w)
      unfold start
      rw [hrt]
      exact hw
    | some p =>
      cases hs : w.user.runtimeStarted with
      | true =>
        left
        show Quiet _ w (start prog w)
        unfold start
        rw [hrt]
        simpa [hs] using hw
      | false => exact .inr ⟨rfl, p, rfl, start_quiet h hf hrt hs⟩
  | checkTransitions nowUs => exact .inl (checkTransitions_quiet nowUs h hf)
  | operational p op => cases hout
  | registerFaultPropagation socket faultOrder =>
    left
    show Quiet _ w (registerFaultPropagation socket faultOrder w)
    unfold registerFaultPropagation mapUser
    dsimp only
    split <;> exact { hw with }

/-- A latched fault stays, with its cause, unless a runtime is installed over another. -/
theorem op_stays {op : FaultOp κ} {w : CWorld κ υ} (h : Latched w) (hf : w.user.faulted = true)
    (hop : ¬ Reinstalls w op) :
    (op.run prog w).user.faulted = true ∧
      (op.run prog w).user.latchedCause = w.user.latchedCause := by
  have hreq : w.user.requested <+: (op.run prog w).user.requested := by
    cases hout : FaultOp.isOperational op with
    | true =>
      cases op <;> cases hout
      exact (callOperational_agrees _ _ ⟨h, .refl w⟩).2.requested
    | false =>
      rcases op_quiet h hf hop hout with hq | ⟨-, p, -, hq⟩
      · exact hq.requested
      · exact hq.requested
  have hend := @op_latched _ _ prog _ op _ h
  obtain ⟨l, hl⟩ := (latched_first h hf).trans hreq
  refine ⟨?_, ?_⟩
  · rw [hend.faulted, ← hl]
    rfl
  · exact hend.cause _ (by rw [← hl]; rfl)

theorem run_latched {w₀ w : CWorld κ υ} {ok : CWorld κ υ → Label κ υ → Prop}
    {ls : List (Label κ υ)} (h0 : Latched w₀) (r : Run (Step prog) ok w₀ ls w) : Latched w := by
  refine r.invariant h0 ?_
  rintro t ⟨v, op⟩ u ht - ⟨hv, rfl⟩
  exact op_latched op (around_latched hv ht)

/-- **A latched fault stays** over whole runs. -/
theorem run_stays {w w' : CWorld κ υ} {ls : List (Label κ υ)} (h : Latched w)
    (hf : w.user.faulted = true)
    (r : Run (Step prog) (fun _ l => ¬ Reinstalls l.1 l.2) w ls w') :
    w'.user.faulted = true ∧ w'.user.latchedCause = w.user.latchedCause := by
  have hinv : Latched w' ∧ w'.user.faulted = true ∧
      w'.user.latchedCause = w.user.latchedCause := by
    refine r.invariant (P := fun v => Latched v ∧ v.user.faulted = true ∧
      v.user.latchedCause = w.user.latchedCause) ⟨h, hf, rfl⟩ ?_
    rintro t ⟨v, op⟩ u ⟨hl, hft, hct⟩ hop ⟨hv, rfl⟩
    have hlv := around_latched hv hl
    have huser : v.user = { t.user with program := v.user.program } := congrArg World.user hv
    have hfv : v.user.faulted = true := by rw [huser]; exact hft
    have hcv : v.user.latchedCause = w.user.latchedCause := by rw [huser]; exact hct
    obtain ⟨hfu, hcu⟩ := @op_stays _ _ prog _ _ _ hlv hfv hop
    exact ⟨op_latched op hlv, hfu, hcu.trans hcv⟩
  exact hinv.2

/-! ## Main results -/

/-- The static initialisers. -/
def Fresh (w : CWorld κ υ) : Prop :=
  w.user = { latchedCause := default, program := w.user.program }

theorem fresh_latched {w : CWorld κ υ} (h : Fresh w) : Latched w := by
  unfold Fresh at h
  refine ⟨?_, ?_, ?_, ?_, ?_, ?_⟩ <;> rw [h] <;> first | rfl | simp

/-- **The fault latch**, for every run from the static initialisers. The requests since
a runtime was last installed over another are `requested`. -/
theorem fault_latch {w₀ w : CWorld κ υ} (h0 : Fresh w₀) {ls : List (Label κ υ)}
    (r : Run (Step prog) (fun _ _ => True) w₀ ls w) :
    -- the flag, the cause, the global machine and the fault-entry action agree
    (isFaulted w = true ↔ w.user.requested ≠ []) ∧
    latchedFaultCause w = w.user.requested.head? ∧
    (∀ p, w.user.runtime = some p → w.currentState p.addr =
      (if isFaulted w then RuntimeState.fault else RuntimeState.operational).toNat) ∧
    (w.user.faultEntries =
      if isFaulted w ∧ w.user.runtimeStarted ∧ (w.user.runtime.bind Policy.onFaultEnter).isSome
      then 1 else 0) ∧
    -- a request latches, and a latched fault stays with its cause
    (∀ c, isFaulted (requestFault prog c w) = true ∧
      latchedFaultCause (requestFault prog c w) = some ((latchedFaultCause w).getD c)) ∧
    (isFaulted w = true → ∀ ls' w',
      Run (Step prog) (fun _ l => ¬ Reinstalls l.1 l.2) w ls' w' →
      isFaulted w' = true ∧ latchedFaultCause w' = latchedFaultCause w) ∧
    -- meanwhile the controller enters no state, but for a start, in `FAULT`
    (isFaulted w = true → ∀ op, ¬ Reinstalls w op → FaultOp.isOperational op = false →
      (op.run prog w).trace = w.trace ∨ op = .start ∧ ∃ p, w.user.runtime = some p ∧
        (op.run prog w).trace = w.trace ++ [.entered p.addr RuntimeState.fault.toNat]) ∧
    (isFaulted w = true → ∀ p, w.user.runtime = some p → w.user.runtimeStarted = false →
      (start prog w).trace = w.trace ++ [.entered p.addr RuntimeState.fault.toNat]) := by
  have h := run_latched (fresh_latched h0) r
  have hcause : ∀ {v : CWorld κ υ}, Latched v → latchedFaultCause v = v.user.requested.head? := by
    intro v hv
    unfold latchedFaultCause
    cases hl : v.user.requested with
    | nil => rw [hv.hasCause, hv.faulted, hl]; rfl
    | cons c l =>
      rw [hv.hasCause, hv.faulted, hl, hv.cause c (by rw [hl]; rfl)]
      rfl
  have hflag : ∀ {v : CWorld κ υ}, Latched v → (isFaulted v = true ↔ v.user.requested ≠ []) := by
    intro v hv
    unfold isFaulted
    rw [hv.faulted]
    cases v.user.requested <;> simp
  refine ⟨hflag h, hcause h, h.state, h.entries, fun c => ?_, fun hf ls' w' r' => ?_,
    fun hf op hop hout => ?_, fun hf p hrt hs => (start_quiet h hf hrt hs).trace⟩
  · obtain ⟨hl, ha⟩ := @requestFault_latched _ _ prog c _ h
    obtain ⟨l, hreq⟩ := ha.requested
    change w.user.requested ++ [c] ++ l = _ at hreq
    refine ⟨(hflag hl).mpr ?_, ?_⟩
    · rw [← hreq]
      simp
    · rw [hcause hl, hcause h, ← hreq]
      cases w.user.requested <;> rfl
  · obtain ⟨hf', hc'⟩ := run_stays h hf r'
    have hl' := run_latched h r'
    refine ⟨hf', ?_⟩
    unfold latchedFaultCause
    rw [hl'.hasCause, h.hasCause, hf', hc', show w.user.faulted = true from hf]
  · rcases op_quiet h hf hop hout with hq | ⟨rfl, p, hrt, hq⟩
    · exact .inl hq.trace
    · exact .inr ⟨rfl, p, hrt, hq.trace⟩

/-- A program that does nothing. -/
def quietProgram : Program Nat Unit where
  action _ := []
  guard _ := ([], fun _ => false)
  panicCause _ := 0

/-- A fault requested before the runtime is installed: the start enters `FAULT`. -/
theorem fault_latch_early :
    let p : Policy := { place := 0, onFaultEnter := some 1, own := by simp }
    let w : CWorld Nat Unit :=
      { currentState := fun _ => 0, cyclicActions := fun _ _ => [], sched := initial
        user := { latchedCause := default, program := () } }
    (start quietProgram (installRuntime p (requestFault quietProgram 7 w))).trace =
      [.entered [0] RuntimeState.fault.toNat] := by
  intro p w
  have h0 : Fresh w := rfl
  have around : ∀ v : CWorld Nat Unit, Around v v := fun _ => rfl
  have r : Run (Step quietProgram) (fun _ _ => True) w
      [(w, .requestFault 7), (requestFault quietProgram 7 w, .installRuntime p)]
      (installRuntime p (requestFault quietProgram 7 w)) :=
    .cons trivial ⟨around _, rfl⟩ (.single trivial ⟨around _, rfl⟩)
  obtain ⟨-, -, -, -, -, -, -, hstart⟩ := fault_latch h0 r
  exact hstart rfl p rfl rfl

end StLib.Protections.FaultLatch
