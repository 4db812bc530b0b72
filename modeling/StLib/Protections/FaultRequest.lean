import StLib.Protections.FaultController

/-! # Requests of faults

The flag, the latched cause, the state of the global machine and the runs of
`on_fault_enter` agree (`Latched`), and a request keeps them in agreement
(`requestFault_latched`): the first one latches its cause and switches the global
machine, and a request made while it is served, by an exit action or by
`on_fault_enter`, only publishes. -/
namespace StLib.Protections.FaultRequest

open StLib.Scheduler.Model StLib.StateMachine.Model StLib.StateMachine.Rules
open StLib.Protections.FaultController

variable {κ υ : Type}

/-- What the controller's members and the global machine satisfy between steps. -/
structure Latched (w : CWorld κ υ) : Prop where
  faulted : w.user.faulted = !w.user.requested.isEmpty
  hasCause : w.user.hasLatchedCause = w.user.faulted
  cause : ∀ c, w.user.requested.head? = some c → w.user.latchedCause = c
  state : ∀ p, w.user.runtime = some p →
    w.currentState p.addr =
      (if w.user.faulted then RuntimeState.fault else RuntimeState.operational).toNat
  entries : w.user.faultEntries =
    if w.user.faulted ∧ w.user.runtimeStarted ∧ (w.user.runtime.bind Policy.onFaultEnter).isSome
    then 1 else 0
  started : w.user.runtime = none → w.user.runtimeStarted = false

/-- `w'` has the runtime of `w`, and the requests of `w` first. -/
structure After (w w' : CWorld κ υ) : Prop where
  runtime : w'.user.runtime = w.user.runtime
  started : w'.user.runtimeStarted = w.user.runtimeStarted
  requested : w.user.requested <+: w'.user.requested

theorem After.refl (w : CWorld κ υ) : After w w := ⟨rfl, rfl, List.prefix_refl _⟩

theorem After.trans {w w' w'' : CWorld κ υ} (h : After w w') (h' : After w' w'') : After w w'' :=
  ⟨h'.runtime.trans h.runtime, h'.started.trans h.started, h.requested.trans h'.requested⟩

/-- What the steps of a list and requests keep, the list keeps. -/
theorem runActs_mem {P : CWorld κ υ → Prop} {request : κ → CWorld κ υ → CWorld κ υ}
    (hr : ∀ c w, P w → P (request c w)) : ∀ {l : List (Act κ υ)} {w : CWorld κ υ},
    (∀ a ∈ l, ∀ w, P w → P (mapUser (fun u => { u with program := (a w).2 }) w)) → P w →
    P (runActs request l w)
  | [], _, _, h => h
  | a :: rest, w, hu, h => by
    have ha := hu a List.mem_cons_self w h
    rw [runActs]
    refine runActs_mem hr (l := rest) (fun b hb => hu b (List.mem_cons_of_mem _ hb)) ?_
    cases (a w).1 with
    | none => exact ha
    | some c => exact hr c _ ha

/-- What updates of the program and requests keep, a list of steps keeps. -/
theorem runActs_rule {P : CWorld κ υ → Prop} {request : κ → CWorld κ υ → CWorld κ υ}
    (hu : ∀ x w, P w → P (mapUser (fun u => { u with program := x }) w))
    (hr : ∀ c w, P w → P (request c w)) {l : List (Act κ υ)} {w : CWorld κ υ} (h : P w) :
    P (runActs request l w) :=
  runActs_mem hr (fun a _ w => hu (a w).2 w) h

theorem after_recordRequest (c : κ) (w : CWorld κ υ) : After w (recordRequest c w) :=
  ⟨rfl, rfl, List.prefix_append _ _⟩

/-! ## Requests while a fault is latched -/

/-- A fault is latched by `c`, the global machine of `p` is in state `s`, and
`on_fault_enter` has run `n` times. -/
structure Serving (c : κ) (p : Policy) (s : RuntimeState) (n : Nat) (w : CWorld κ υ) : Prop where
  faulted : w.user.faulted = true
  hasCause : w.user.hasLatchedCause = true
  cause : w.user.latchedCause = c
  first : [c] <+: w.user.requested
  runtime : w.user.runtime = some p
  started : w.user.runtimeStarted = true
  state : w.currentState p.addr = s.toNat
  entries : w.user.faultEntries = n

theorem Serving.latched {c : κ} {p : Policy} {n : Nat} {w : CWorld κ υ}
    (h : Serving c p .fault n w) (hn : n = if p.onFaultEnter.isSome then 1 else 0) : Latched w := by
  obtain ⟨l, hl⟩ := h.first
  refine ⟨?_, ?_, ?_, ?_, ?_, ?_⟩
  · rw [h.faulted, ← hl]
    rfl
  · rw [h.hasCause, h.faulted]
  · rw [← hl]
    intro d hd
    exact h.cause.trans (Option.some.inj hd)
  · intro q hq
    rw [h.runtime] at hq
    cases hq
    rw [h.faulted, h.state]
    rfl
  · simp [h.faulted, h.started, h.runtime, h.entries, hn]
  · rw [h.runtime]
    exact nofun

theorem Serving.congr {c : κ} {p : Policy} {s : RuntimeState} {n : Nat} {w v : CWorld κ υ}
    (h : Serving c p s n w) (hu : v.user = w.user)
    (hc : v.currentState p.addr = w.currentState p.addr) : Serving c p s n v :=
  ⟨hu ▸ h.faulted, hu ▸ h.hasCause, hu ▸ h.cause, hu ▸ h.first, hu ▸ h.runtime, hu ▸ h.started,
    hc.trans h.state, hu ▸ h.entries⟩

theorem Serving.program {c : κ} {p : Policy} {s : RuntimeState} {n : Nat} (x : υ) {w : CWorld κ υ}
    (h : Serving c p s n w) : Serving c p s n (mapUser (fun u => { u with program := x }) w) :=
  { h with }

theorem requestAgain_serving {c d : κ} {p : Policy} {s : RuntimeState} {n : Nat} {w : CWorld κ υ}
    (h : Serving c p s n w) : Serving c p s n (requestAgain d w) :=
  { h with first := h.first.trans (List.prefix_append _ _) }

theorem requestFault_first (prog : Program κ υ) (c : κ) {w : CWorld κ υ}
    (h : w.user.faulted = false) : requestFault prog c w = publishFaultDiagnostic c
      (propagateFault prog false (switchToFault prog requestAgain (latch c (recordRequest c w)))) := by
  have hr : (recordRequest c w).user.faulted = false := h
  simp only [requestFault, requestWith, hr]
  rfl

theorem requestAgain_faulted (c : κ) (w : CWorld κ υ) :
    (requestAgain c w).user.faulted = w.user.faulted := rfl

theorem requestAgain_eq (prog : Program κ υ) (c : κ) {w : CWorld κ υ}
    (h : w.user.faulted = true) : requestFault prog c w = requestAgain c w := by
  have hr : (recordRequest c w).user.faulted = true := h
  simp only [requestFault, requestWith, hr]
  rfl

variable {prog : Program κ υ}

/-- While a fault is latched, the callbacks of the operational machine leave the latch
and the global machine alone. -/
theorem keeps_serving {request : κ → CWorld κ υ → CWorld κ υ} {c : κ} {p : Policy}
    {s : RuntimeState} {n : Nat}
    (hr : ∀ d w, Serving c p s n w → Serving c p s n (request d w)) :
    KeepsStates (hooks prog request) {} (· ≠ onFaultStateEnter) fun _ => Serving c p s n where
  weaken _ _ h := h
  action _ d w hd _ h := by
    simp only [hooks, if_neg hd]
    exact runActs_rule (fun x _ => Serving.program x) hr h
  entered _ _ _ h := h.congr rfl rfl
  register _ _ _ _ h := registerAllTimedActions_rule (fun _ _ => h.congr rfl rfl) fun _ => hr _
  unregister _ _ _ h := h.congr rfl rfl
  addStateOrders _ _ h := { h with }
  removeStateOrders _ _ h := { h with }

/-! ## The global machine -/

theorem bound_operational (p : Policy) :
    p.runtimeMachine.bound RuntimeState.operational.toNat =
      p.operationalMachine.map fun m => (0, m) := by
  unfold Policy.runtimeMachine Machine.bound Machine.nested
  cases p.operationalMachine <;> rfl

theorem bound_fault (p : Policy) : p.runtimeMachine.bound RuntimeState.fault.toNat = none := by
  unfold Policy.runtimeMachine Machine.bound Machine.nested
  cases p.operationalMachine <;> rfl

theorem actions_trivial (h : Hooks (Controller κ υ)) (X : Option (Addr × Nat))
    (l : List (Option Callback)) (w : CWorld κ υ) : ActionsMeet h {} X l w :=
  actions_free monitor_free X l w

/-- Entering `FAULT` runs `on_fault_enter`. -/
theorem enterFault_serving {request : κ → CWorld κ υ → CWorld κ υ} {c : κ} {p : Policy}
    {n : Nat} {w : CWorld κ υ}
    (hr : ∀ s n d w, Serving c p s n w → Serving c p s n (request d w))
    (h : Serving c p .fault n w) :
    Serving c p .fault (n + if p.onFaultEnter.isSome then 1 else 0)
      (p.runtimeMachine.enter (hooks prog request) p.addr w) := by
  have hstate : p.runtimeMachine.state (w.currentState p.addr) =
      { onEnterActions := [some onFaultStateEnter] } := by
    rw [h.state]
    rfl
  have haction : Serving c p .fault (n + if p.onFaultEnter.isSome then 1 else 0)
      (runFaultStateEnter prog request (w.log (.entered p.addr (w.currentState p.addr)))) := by
    have hlog : Serving c p .fault n (w.log (.entered p.addr (w.currentState p.addr))) :=
      h.congr rfl rfl
    unfold runFaultStateEnter
    rw [hlog.runtime, Option.bind_some]
    cases p.onFaultEnter with
    | none => exact hlog
    | some d =>
      exact runActs_rule (fun x _ => Serving.program x) (hr _ _)
        { hlog with entries := congrArg (· + 1) hlog.entries }
  unfold Machine.enter enterState
  rw [hstate]
  exact (@keeps_serving _ _ prog _ _ _ _ _ (hr _ _)).register _ _ _ trivial haction

/-- **Forcing the global machine to `FAULT`** exits the operational state and runs
`on_fault_enter` once. -/
theorem forceFault_serving {request : κ → CWorld κ υ → CWorld κ υ} {c : κ} {p : Policy}
    {w : CWorld κ υ} (hr : ∀ s n d w, Serving c p s n w → Serving c p s n (request d w))
    (h : Serving c p .operational 0 w) :
    Serving c p .fault (if p.onFaultEnter.isSome then 1 else 0)
      (p.runtimeMachine.forceChangeState (hooks prog request) p.addr RuntimeState.fault.toNat w) := by
  have hk := @keeps_serving _ _ prog _ _ _ .operational 0 (hr _ _)
  have hexit : Serving c p .operational 0 (p.runtimeMachine.exit (hooks prog request) p.addr w) := by
    refine exitState_rule hk (X := none) ?_ (actions_trivial _ _ _ _) h
    rw [h.state]
    exact fun d hd => by rcases hd with hd | hd <;> cases hd
  have hbound : Serving c p .operational 0 (p.runtimeMachine.exitBound (hooks prog request) p.addr
      (p.runtimeMachine.exit (hooks prog request) p.addr w)) := by
    unfold Machine.exitBound
    rw [hexit.state, bound_operational]
    cases hm : p.operationalMachine with
    | none => exact hexit
    | some m =>
      exact exitState_rule hk (X := none) (uses_state (p.own m hm) _) (actions_trivial _ _ _ _) hexit
  have hleave : Serving c p .operational 0 (p.runtimeMachine.leave (hooks prog request) p.addr w) := by
    unfold Machine.leave Machine.removeStateOrders
    rw [hbound.state]
    exact hbound
  have hmid : Serving c p .fault 0 ((p.runtimeMachine.leave (hooks prog request) p.addr w).setCurrentState
      p.addr RuntimeState.fault.toNat) :=
    { hleave with state := Function.update_self .. }
  have henter := @enterFault_serving _ _ prog _ _ _ _ _ hr hmid
  rw [Nat.zero_add] at henter
  have hne : w.currentState p.addr ≠ RuntimeState.fault.toNat := by
    rw [h.state]
    decide
  rw [Machine.forceChangeState, Machine.performStateChange, if_neg hne]
  unfold Machine.arrive Machine.enterBound
  rw [henter.state, bound_fault]
  unfold Machine.refreshStateOrders
  rw [henter.state]
  exact henter

/-! ## A request -/

theorem propagateFault_latched {w : CWorld κ υ} {retry : Bool} (h : Latched w) :
    Latched (propagateFault prog retry w) := { h with }

theorem publish_latched {w : CWorld κ υ} {c : κ} (h : Latched w) :
    Latched (publishFaultDiagnostic c w) := { h with }

theorem requestAgain_latched (c : κ) {w : CWorld κ υ} (h : Latched w)
    (hf : w.user.faulted = true) : Latched (requestAgain c w) := by
  have hne : w.user.requested ≠ [] := by
    intro he
    have := h.faulted
    rw [hf, he] at this
    cases this
  obtain ⟨d, l, hl⟩ := List.exists_cons_of_ne_nil hne
  refine { h with faulted := ?_, cause := fun e he => h.cause e ?_ }
  · show w.user.faulted = !(w.user.requested ++ [c]).isEmpty
    rw [hf, hl]
    rfl
  · change (w.user.requested ++ [c]).head? = some e at he
    rw [hl] at he ⊢
    exact he

theorem switchToFault_none {request : κ → CWorld κ υ → CWorld κ υ} {w : CWorld κ υ}
    (h : w.user.runtime = none) : switchToFault prog request w = w := by
  unfold switchToFault
  rw [h]

theorem switchToFault_rebuild {request : κ → CWorld κ υ → CWorld κ υ} {w : CWorld κ υ} {p : Policy}
    (h : w.user.runtime = some p) (hs : w.user.runtimeStarted = false) :
    switchToFault prog request w = reconstructRuntimeMachine p .fault w := by
  unfold switchToFault
  rw [h]
  exact if_neg (by rw [hs]; nofun)

theorem switchToFault_force {request : κ → CWorld κ υ → CWorld κ υ} {w : CWorld κ υ} {p : Policy}
    (h : w.user.runtime = some p) (hs : w.user.runtimeStarted = true) :
    switchToFault prog request w = p.runtimeMachine.forceChangeState (hooks prog request) p.addr
      RuntimeState.fault.toNat w := by
  unfold switchToFault
  rw [h]
  exact if_pos hs

/-- Switching the global machine, with the first fault just latched. -/
theorem switchToFault_latched {request : κ → CWorld κ υ → CWorld κ υ} {c : κ} {w : CWorld κ υ}
    (hr : ∀ p s n d w, Serving c p s n w → Serving c p s n (request d w))
    (h : Latched w) (hf : w.user.faulted = false) :
    Latched (switchToFault prog request (latch c (recordRequest c w))) ∧
    After (recordRequest c w) (switchToFault prog request (latch c (recordRequest c w))) := by
  have hnil : w.user.requested = [] := by simpa [hf] using h.faulted
  have hzero : w.user.faultEntries = 0 := by simpa [hf] using h.entries
  have hfirst : (latch c (recordRequest c w)).user.requested = [c] := by
    show w.user.requested ++ [c] = [c]
    rw [hnil, List.nil_append]
  have hsome : ∀ l : List κ, l = [c] → true = !l.isEmpty := fun l hl => hl ▸ rfl
  have hcause : ∀ l : List κ, l = [c] → ∀ d, l.head? = some d → c = d := by
    rintro l rfl d hd
    exact Option.some.inj hd
  have hleading : ∀ l : List κ, [c] <+: l → (recordRequest c w).user.requested <+: l := by
    intro l hl
    exact hfirst ▸ hl
  have hself : [c] <+: (latch c (recordRequest c w)).user.requested := hfirst ▸ List.prefix_refl _
  cases hrt : w.user.runtime with
  | none =>
    rw [switchToFault_none (w := latch c (recordRequest c w)) hrt]
    refine ⟨⟨hsome _ hfirst, rfl, hcause _ hfirst, ?_, ?_, h.started⟩, rfl, rfl, hleading _ hself⟩
    · intro p hp
      exact absurd (hrt.symm.trans hp) nofun
    · exact hzero.trans
        (if_neg fun ⟨_, hs, _⟩ => absurd ((h.started hrt).symm.trans hs) nofun).symm
  | some p =>
    cases hst : w.user.runtimeStarted with
    | false =>
      rw [switchToFault_rebuild (w := latch c (recordRequest c w)) hrt hst]
      refine ⟨⟨hsome _ hfirst, rfl, hcause _ hfirst, ?_, ?_, nofun⟩, hrt.symm, rfl, hleading _ hself⟩
      · intro q hq
        cases hq
        exact Function.update_self ..
      · exact hzero.trans (if_neg fun ⟨_, hs, _⟩ => absurd (hst.symm.trans hs) nofun).symm
    | true =>
      have hs : Serving c p .operational 0 (latch c (recordRequest c w)) := by
        refine ⟨rfl, rfl, rfl, hfirst ▸ List.prefix_refl _, hrt, hst, ?_, hzero⟩
        have := h.state p hrt
        rwa [hf] at this
      have hend := @forceFault_serving _ _ prog _ _ _ _ (hr p) hs
      rw [switchToFault_force (w := latch c (recordRequest c w)) hrt hst]
      exact ⟨hend.latched rfl, hend.runtime.trans hrt.symm, hend.started.trans hst.symm, hleading _ hend.first⟩

/-- **A request** keeps the latch in agreement. -/
theorem requestFault_latched (c : κ) {w : CWorld κ υ} (h : Latched w) :
    Latched (requestFault prog c w) ∧ After (recordRequest c w) (requestFault prog c w) := by
  cases hf : w.user.faulted with
  | true =>
    rw [requestAgain_eq prog c hf]
    exact ⟨requestAgain_latched c h hf, rfl, rfl, List.prefix_refl _⟩
  | false =>
    obtain ⟨hl, ha⟩ := @switchToFault_latched _ _ prog _ _ _
      (fun _ _ _ _ _ => requestAgain_serving) h hf
    rw [requestFault_first prog c hf]
    exact ⟨publish_latched (propagateFault_latched hl), ha.runtime, ha.started, ha.requested⟩

theorem requestFault_faulted (c : κ) {w : CWorld κ υ} (hl : Latched w) :
    (requestFault prog c w).user.faulted = true := by
  obtain ⟨hl', ha⟩ := @requestFault_latched _ _ prog c _ hl
  obtain ⟨l, hl⟩ := ha.requested
  change w.user.requested ++ [c] ++ l = _ at hl
  rw [hl'.faulted, ← hl]
  simp

/-- While a fault is latched, callbacks whose requests only publish do what callbacks
whose requests are `request_fault` do. -/
theorem hooks_alike (prog : Program κ υ) : Alike (fun w : CWorld κ υ => w.user.faulted = true)
    (hooks prog requestAgain) (hooks prog (requestFault prog)) := by
  have hacts : ∀ (l : List (Act κ υ)) (w : CWorld κ υ), w.user.faulted = true →
      runActs requestAgain l w = runActs (requestFault prog) l w := by
    intro l
    induction l with
    | nil => exact fun _ _ => rfl
    | cons a rest ih =>
      intro w hf
      rw [runActs, runActs]
      cases (a w).1 with
      | none => exact ih _ hf
      | some c =>
        have hw : (mapUser (fun u => { u with program := (a w).2 }) w).user.faulted = true := hf
        dsimp only
        rw [requestAgain_eq prog c hw]
        exact ih _ hf
  have hkeep : ∀ (l : List (Act κ υ)) (w : CWorld κ υ), w.user.faulted = true →
      (runActs requestAgain l w).user.faulted = true := fun l w hf =>
    runActs_rule (P := fun w => w.user.faulted = true) (fun _ _ h => h)
      (fun c w h => (requestAgain_faulted c w).trans h) hf
  refine ⟨⟨fun _ _ h => h, fun _ c w _ _ h => ?_, fun _ _ _ h => h, fun _ _ _ _ h => ?_,
    fun _ _ _ h => h, fun _ _ h => h, fun _ _ h => h⟩, fun _ _ _ h => h, fun c w h => ?_,
    fun π s w h => ?_, fun _ _ => rfl, fun _ _ => rfl⟩
  · show (if _ then _ else _ : CWorld κ υ).user.faulted = true
    split
    · unfold runFaultStateEnter
      split
      · exact hkeep _ _ h
      · exact h
    · exact hkeep _ _ h
  · exact registerAllTimedActions_rule (P := fun w : CWorld κ υ => w.user.faulted = true)
      (fun _ _ => h) fun _ w h => (requestAgain_faulted _ w).trans h
  · show (if _ then _ else _) = if _ then _ else _
    split
    · unfold runFaultStateEnter
      split
      · exact hacts _ _ h
      · rfl
    · exact hacts _ _ h
  · unfold registerAllTimedActions
    dsimp only
    split
    · rfl
    · show requestAgain _ _ = requestFault prog _ _
      exact (requestAgain_eq prog _ (by exact h)).symm

/-- **The recursion of `request_fault`**: a request made while the first one is served
is `request_fault` too. -/
theorem requestFault_eq (c : κ) (w : CWorld κ υ) :
    requestFault prog c w = requestWith prog (requestFault prog) c w := by
  have hswitch : ∀ v : CWorld κ υ, v.user.faulted = true →
      switchToFault prog requestAgain v = switchToFault prog (requestFault prog) v := by
    intro v hf
    unfold switchToFault
    split
    · split
      · exact performStateChange_alike (hooks_alike prog) _ _ _ hf
      · rfl
    · rfl
  show requestWith prog requestAgain c w = _
  unfold requestWith
  dsimp only
  split
  · rw [hswitch _ rfl]
  · rfl

theorem requestAgain_still (c : κ) (w : CWorld κ υ) :
    (requestAgain c w).currentState = w.currentState := rfl

theorem runFaultStateEnter_rule {P : CWorld κ υ → Prop} {request : κ → CWorld κ υ → CWorld κ υ}
    (hu : ∀ x w, P w → P (mapUser (fun u => { u with program := x }) w))
    (hr : ∀ c w, P w → P (request c w))
    (he : ∀ w, P w → P (mapUser (fun u => { u with faultEntries := u.faultEntries + 1 }) w))
    {w : CWorld κ υ} (h : P w) : P (runFaultStateEnter prog request w) := by
  unfold runFaultStateEnter
  split
  · exact runActs_rule hu hr (he w h)
  · exact h

/-- Requests that only publish change no current state. -/
theorem hooks_still (prog : Program κ υ) : Still (hooks prog requestAgain) := by
  refine ⟨fun d v => ?_, fun _ _ => rfl, fun _ _ => rfl, fun _ _ => rfl⟩
  show (if _ then _ else _ : CWorld κ υ).currentState = _
  split
  · exact runFaultStateEnter_rule (P := fun u => u.currentState = v.currentState)
      (fun _ _ h => h) (fun c u h => (requestAgain_still c u).trans h) (fun _ h => h) rfl
  · exact runActs_rule (P := fun u => u.currentState = v.currentState) (fun _ _ h => h)
      (fun c u h => (requestAgain_still c u).trans h) rfl

/-- A request leaves the machines below the global one in their states. -/
theorem requestFault_still (c : κ) (w : CWorld κ υ) {ρ : Addr} (hρ : 2 ≤ ρ.length) :
    (requestFault prog c w).currentState ρ = w.currentState ρ := by
  have hne : ∀ p : Policy, ρ ≠ p.addr := by
    rintro p rfl
    simp [Policy.addr] at hρ
  cases hf : w.user.faulted with
  | true => rw [requestAgain_eq prog c hf]; rfl
  | false =>
    rw [requestFault_first prog c hf]
    show (switchToFault prog requestAgain (latch c (recordRequest c w))).currentState ρ = _
    unfold switchToFault
    split
    · split
      · exact performStateChange_still (hooks_still prog) _ _ _ _ (hne _)
      · exact Function.update_of_ne (hne _) ..
    · rfl

end StLib.Protections.FaultRequest
