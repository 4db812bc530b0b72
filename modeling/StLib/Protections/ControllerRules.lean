import StLib.Protections.FaultLatch

/-! # What the controller's operations keep of its members

The machines change the controller's members only through their callbacks. A property
of the members that the program's steps and the requests keep is kept by every
operation of the machines (`KeepsMembers`), and one that a start and a retry keep too
by every operation of the controller (`KeepsOps`). -/
namespace StLib.Protections.ControllerRules

open StLib.StateMachine.Model StLib.StateMachine.Rules
open StLib.Protections.FaultController StLib.Protections.FaultRequest

variable {κ υ : Type} {prog : Program κ υ} {request : κ → CWorld κ υ → CWorld κ υ}
  {P : CWorld κ υ → Prop}

/-- What the program's steps and requests keep; `P` is about the members only. -/
structure KeepsMembers (prog : Program κ υ) (request : κ → CWorld κ υ → CWorld κ υ)
    (P : CWorld κ υ → Prop) : Prop where
  congr : ∀ {w v : CWorld κ υ}, P w → v.user = w.user → P v
  action : ∀ c, ∀ a ∈ prog.action c, ∀ w, P w →
    P (mapUser (fun u => { u with program := (a w).2 }) w)
  guard : ∀ g, ∀ a ∈ (prog.guard g).1, ∀ w, P w →
    P (mapUser (fun u => { u with program := (a w).2 }) w)
  addStateOrders : ∀ ids w, P w →
    P (mapUser (fun u => { u with program := prog.addStateOrders ids u.program }) w)
  removeStateOrders : ∀ ids w, P w →
    P (mapUser (fun u => { u with program := prog.removeStateOrders ids u.program }) w)
  entries : ∀ w, P w → P (mapUser (fun u => { u with faultEntries := u.faultEntries + 1 }) w)
  request : ∀ c w, P w → P (request c w)

theorem KeepsMembers.enterFault (hk : KeepsMembers prog request P) {w : CWorld κ υ} (h : P w) :
    P (runFaultStateEnter prog request w) := by
  unfold runFaultStateEnter
  split
  · exact runActs_mem hk.request (hk.action _) (hk.entries w h)
  · exact h

theorem KeepsMembers.plain (hk : KeepsMembers prog request P) : KeepsPlain (hooks prog request) P where
  weaken _ _ h := h
  action _ c w _ _ h := by
    show P (if c = onFaultStateEnter then _ else _)
    split
    · exact hk.enterFault h
    · exact runActs_mem hk.request (hk.action c) h
  entered _ _ _ h := hk.congr h rfl
  register _ _ _ _ h := registerAllTimedActions_rule (fun _ _ => hk.congr h rfl) fun _ => hk.request _
  unregister _ _ _ h := hk.congr h rfl
  addStateOrders ids w h := hk.addStateOrders ids w h
  removeStateOrders ids w h := hk.removeStateOrders ids w h
  predicate g _ h := runActs_mem hk.request (hk.guard g) h
  panic _ w h := hk.request _ w h
  current _ _ _ h := hk.congr h rfl

theorem KeepsMembers.switchToFault (hk : KeepsMembers prog request P) {w : CWorld κ υ} (h : P w) :
    P (switchToFault prog request w) := by
  cases hrt : w.user.runtime with
  | none => rwa [switchToFault_none hrt]
  | some p =>
    cases hs : w.user.runtimeStarted with
    | true =>
      rw [switchToFault_force hrt hs]
      exact performStateChange_plain hk.plain.toKeepsStates hk.plain.current _ _ _ h
    | false =>
      rw [switchToFault_rebuild hrt hs]
      refine hk.congr h ?_
      show ({ w.user with runtime := some p } : Controller κ υ) = w.user
      rw [← hrt]

/-- What an operation that neither installs a runtime nor registers a target keeps. -/
structure KeepsOps (prog : Program κ υ) (P : CWorld κ υ → Prop) : Prop
    extends KeepsMembers prog (requestFault prog) P where
  runtimeStarted : ∀ w, P w → P (setRuntimeStarted w)
  retry : ∀ nowUs w, w.user.faulted = true → P w →
    P (propagateFault prog true (mapUser (fun u => { u with lastRetryUs := nowUs }) w))

theorem KeepsOps.start (hk : KeepsOps prog P) {w : CWorld κ υ} (h : P w) : P (start prog w) := by
  unfold FaultController.start
  split
  · split
    · exact h
    · exact start_plain hk.plain (fun _ _ hv => hk.congr hv rfl) _ _ (hk.runtimeStarted w h)
  · exact h

theorem KeepsOps.checkTransitions (hk : KeepsOps prog P) (nowUs : BitVec 64) {w : CWorld κ υ}
    (h : P w) : P (checkTransitions prog nowUs w) := by
  unfold FaultController.checkTransitions
  split
  next p hrt =>
    split
    · exact h
    · have hcheck : P (p.runtimeMachine.checkTransitions (outerHooks prog) p.addr w) :=
        checkTransitions_plain hk.plain _ _ h
      dsimp only
      split
      next hretry => exact hk.retry nowUs _ hretry.1 hcheck
      next => exact hcheck
  next => exact h

theorem KeepsOps.callOperational (hk : KeepsOps prog P) (p : Policy) (op : MachineOp)
    {w : CWorld κ υ} (h : P w) : P (callOperational prog p op w) := by
  unfold FaultController.callOperational
  split
  · cases op with
    | start => exact start_plain hk.plain (fun _ _ hv => hk.congr hv rfl) _ _ h
    | checkTransitions => exact checkTransitions_plain hk.plain _ _ h
    | forceChangeState s =>
      exact performStateChange_plain hk.plain.toKeepsStates hk.plain.current _ _ _ h
  · exact h

/-- **The rule for an operation**: what an installation and a registration must keep is
asked of them apart. -/
theorem KeepsOps.op [Inhabited κ] (hk : KeepsOps prog P) {op : FaultOp κ} {w : CWorld κ υ} (h : P w)
    (hinstall : ∀ p, op = .installRuntime p → P (installRuntime p w))
    (hregister : ∀ socket faultOrder, op = .registerFaultPropagation socket faultOrder →
      P (registerFaultPropagation socket faultOrder w)) : P (op.run prog w) := by
  cases op with
  | requestFault c => exact hk.request c w h
  | installRuntime p => exact hinstall p rfl
  | start => exact hk.start h
  | checkTransitions nowUs => exact hk.checkTransitions nowUs h
  | operational p op => exact hk.callOperational p op h
  | registerFaultPropagation socket faultOrder => exact hregister socket faultOrder rfl

end StLib.Protections.ControllerRules
