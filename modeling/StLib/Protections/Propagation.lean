import StLib.Protections.ControllerRules

/-! # The propagation of a fault

A board with what its sockets have accepted. The first fault sends the fault order to
every target that is registered by then, and marks the ones it could not reach; a
target that is registered later is neither sent the order nor marked. -/
namespace StLib.Protections.Propagation

open StLib.Base.Runs
open StLib.StateMachine.Model
open StLib.Protections.FaultController StLib.Protections.FaultRequest
open StLib.Protections.ControllerRules

variable {κ υ : Type}

/-! ## Boards -/

/-- The state of the program, and the sockets and orders of the calls of `send_order`
that returned true. -/
structure Wire (υ : Type) where
  program : υ
  sent : List (Nat × Nat) := []

/-- A target, less its flag. -/
def key (t : PropagationTarget) : Nat × Nat := (t.socket, t.faultOrder)

def offWire (w : CWorld κ (Wire υ)) : CWorld κ υ :=
  { w with user := { w.user with program := w.user.program.program } }

def actOnWire (a : Act κ υ) : Act κ (Wire υ) := fun w =>
  let r := a (offWire w)
  (r.1, { w.user.program with program := r.2 })

/-- The program, which does not see what has been sent. -/
def onWire (prog : Program κ υ) : Program κ (Wire υ) where
  action c := (prog.action c).map actOnWire
  guard g := ((prog.guard g).1.map actOnWire, fun w => (prog.guard g).2 (offWire w))
  panicCause := prog.panicCause
  addStateOrders ids u := { u with program := prog.addStateOrders ids u.program }
  removeStateOrders ids u := { u with program := prog.removeStateOrders ids u.program }
  sendOrder t u :=
    let r := prog.sendOrder t u.program
    (r.1, { program := r.2, sent := if r.1 then u.sent ++ [key t] else u.sent })

def sent (w : CWorld κ (Wire υ)) : List (Nat × Nat) := w.user.program.sent

/-- Between two operations nothing is sent. -/
def BoardAround (w v : CWorld κ (Wire υ)) : Prop := Around w v ∧ sent v = sent w

def BoardStep [Inhabited κ] (prog : Program κ υ) (w : CWorld κ (Wire υ)) (l : Label κ (Wire υ))
    (w' : CWorld κ (Wire υ)) : Prop :=
  BoardAround w l.1 ∧ w' = l.2.run (onWire prog) l.1

/-! ## Sending -/

section sending
variable (prog : Program κ υ) (retry : Bool)

theorem sendFaultOrders_sent (l : List PropagationTarget) (u : Wire υ) :
    u.sent <+: (sendFaultOrders (onWire prog) retry l u).2.sent := by
  induction l generalizing u with
  | nil => exact List.prefix_refl _
  | cons t l ih =>
    rw [sendFaultOrders]
    split
    · exact ih u
    · refine List.IsPrefix.trans ?_ (ih _)
      show u.sent <+: if (prog.sendOrder t u.program).1 then _ else _
      split
      · exact List.prefix_append _ _
      · exact List.prefix_refl _

/-- Every target of the list has been sent the order, or is marked, if those that are
left out have been sent it before. -/
theorem sendFaultOrders_reaches {l : List PropagationTarget} {u : Wire υ}
    (h : ∀ t ∈ l, retry = true → t.pending = false → key t ∈ u.sent) :
    ∀ t ∈ (sendFaultOrders (onWire prog) retry l u).1,
      t.pending = true ∨ key t ∈ (sendFaultOrders (onWire prog) retry l u).2.sent := by
  induction l generalizing u with
  | nil => exact fun t ht => absurd ht List.not_mem_nil
  | cons t l ih =>
    obtain ⟨ht, hl⟩ := List.forall_mem_cons.mp h
    rw [sendFaultOrders]
    split
    next hskip =>
      obtain ⟨hretry, hpending⟩ : retry = true ∧ t.pending = false := by simpa using hskip
      refine List.forall_mem_cons.mpr ⟨?_, ih hl⟩
      exact .inr ((sendFaultOrders_sent prog retry l u).subset (ht hretry hpending))
    next =>
      set v := ((onWire prog).sendOrder t u).2 with hv
      have hgrown : u.sent ⊆ v.sent := by
        rw [hv]
        show u.sent ⊆ if (prog.sendOrder t u.program).1 then _ else _
        split
        · exact List.subset_append_left ..
        · exact List.Subset.refl _
      refine List.forall_mem_cons.mpr ⟨?_, ih fun s hs hr hp => hgrown (hl s hs hr hp)⟩
      cases hsent : (prog.sendOrder t u.program).1 with
      | false => exact .inl (by show (!(prog.sendOrder t u.program).1) = true; rw [hsent]; rfl)
      | true =>
        refine .inr ((sendFaultOrders_sent prog retry l v).subset ?_)
        show key t ∈ v.sent
        rw [hv]
        show key t ∈ if (prog.sendOrder t u.program).1 then u.sent ++ [key t] else u.sent
        rw [hsent]
        exact List.mem_append_right _ List.mem_cons_self

end sending

/-! ## No target is missed -/

/-- Every target of a faulted board has been sent the fault order or is marked. -/
def Reached (w : CWorld κ (Wire υ)) : Prop :=
  isFaulted w = true → ∀ t ∈ w.user.propagationTargets, t.pending = true ∨ key t ∈ sent w

/-- A target that the call adds to the table is registered before the fault, or has been
sent the order already. -/
def Timely (l : Label κ (Wire υ)) : Prop :=
  match l.2 with
  | .registerFaultPropagation socket faultOrder => isFaulted l.1 = false ∨
      maxPropagationTargets ≤ l.1.user.propagationTargets.length ∨ (socket, faultOrder) ∈ sent l.1
  | _ => True

theorem Reached.congr {w v : CWorld κ (Wire υ)} (h : Reached w)
    (hf : v.user.faulted = w.user.faulted)
    (ht : v.user.propagationTargets = w.user.propagationTargets) (hs : sent v = sent w) :
    Reached v := by
  unfold Reached isFaulted
  rw [hf, ht, hs]
  exact h

theorem propagateFault_reached (prog : Program κ υ) (w : CWorld κ (Wire υ)) :
    Reached (propagateFault (onWire prog) false w) :=
  fun _ => sendFaultOrders_reaches prog false nofun

theorem retry_reached (prog : Program κ υ) {w : CWorld κ (Wire υ)} (hf : w.user.faulted = true)
    (h : Reached w) : Reached (propagateFault (onWire prog) true w) := by
  refine fun _ => sendFaultOrders_reaches prog true fun t ht _ hp => ?_
  exact (h hf t ht).resolve_left (by rw [hp]; nofun)

theorem requestFault_reached (prog : Program κ υ) (c : κ) {w : CWorld κ (Wire υ)} (h : Reached w) :
    Reached (requestFault (onWire prog) c w) := by
  cases hf : w.user.faulted with
  | true =>
    rw [requestAgain_eq _ c hf]
    exact h.congr rfl rfl rfl
  | false =>
    have hall := propagateFault_reached prog
      (switchToFault (onWire prog) requestAgain (latch c (recordRequest c w)))
    rw [requestFault_first _ c hf]
    exact hall.congr rfl rfl rfl

theorem acts_sent {l : List (Act κ υ)} {P : CWorld κ (Wire υ) → Prop}
    (hP : ∀ x w, x.sent = sent w → P w → P (mapUser (fun u => { u with program := x }) w)) :
    ∀ a ∈ l.map actOnWire, ∀ w, P w → P (mapUser (fun u => { u with program := (a w).2 }) w) := by
  intro a ha w hw
  obtain ⟨b, -, rfl⟩ := List.mem_map.mp ha
  exact hP _ w rfl hw

theorem keepsOps_reached (prog : Program κ υ) : KeepsOps (onWire prog) Reached where
  congr h hu := by
    unfold Reached isFaulted sent
    rw [hu]
    exact h
  action _ := acts_sent fun _ _ hx h => h.congr rfl rfl hx
  guard _ := acts_sent fun _ _ hx h => h.congr rfl rfl hx
  addStateOrders _ _ h := h.congr rfl rfl rfl
  removeStateOrders _ _ h := h.congr rfl rfl rfl
  entries _ h := h.congr rfl rfl rfl
  request c _ h := requestFault_reached prog c h
  runtimeStarted _ h := h.congr rfl rfl rfl
  retry _ _ hf h := retry_reached prog hf (h.congr rfl rfl rfl)

theorem installRuntime_reached [Inhabited κ] (p : Policy) (w : CWorld κ (Wire υ)) :
    Reached (installRuntime p w) :=
  fun _ _ ht => absurd ht List.not_mem_nil

/-- **A registration** keeps every target reached exactly when it is in time. -/
theorem register_reached {w : CWorld κ (Wire υ)} {socket faultOrder : Nat} (h : Reached w) :
    Reached (registerFaultPropagation socket faultOrder w) ↔
      Timely (w, FaultOp.registerFaultPropagation socket faultOrder) := by
  unfold registerFaultPropagation mapUser
  dsimp only
  split
  next hfull => exact ⟨fun _ => .inr (.inl hfull), fun _ => h⟩
  next hroom =>
    refine ⟨fun hreached => ?_, fun ht hf => ?_⟩
    · cases hf : w.user.faulted with
      | false => exact .inl hf
      | true =>
        have hnew := hreached hf { socket, faultOrder } (List.mem_append_right _ List.mem_cons_self)
        exact .inr (.inr (hnew.resolve_left nofun))
    · have hsent : (socket, faultOrder) ∈ sent w := by
        rcases ht with hcalm | hfull | hsent
        · exact absurd (hcalm.symm.trans hf) nofun
        · exact absurd hfull hroom
        · exact hsent
      intro t ht
      rcases List.mem_append.mp ht with ht | ht
      · exact h hf t ht
      · rw [List.mem_singleton.mp ht]
        exact .inr hsent

theorem around_reached {w v : CWorld κ (Wire υ)} (hv : BoardAround w v) (h : Reached w) :
    Reached v := by
  obtain ⟨ha, hs⟩ := hv
  have hu : v.user = { w.user with program := v.user.program } := congrArg World.user ha
  exact h.congr (by rw [hu]) (by rw [hu]) hs

variable [Inhabited κ] {prog : Program κ υ}

theorem step_reached {w w' : CWorld κ (Wire υ)} {l : Label κ (Wire υ)} (h : Reached w)
    (hs : BoardStep prog w l w') : Reached w' ↔ Timely l := by
  obtain ⟨v, op⟩ := l
  obtain ⟨hv, rfl⟩ := hs
  have hreached := around_reached hv h
  by_cases hop : ∃ socket faultOrder, op = .registerFaultPropagation socket faultOrder
  · obtain ⟨socket, faultOrder, rfl⟩ := hop
    exact register_reached hreached
  · have htimely : Timely (v, op) := by
      cases op with
      | registerFaultPropagation s o => exact absurd ⟨s, o, rfl⟩ hop
      | _ => trivial
    refine iff_of_true ?_ htimely
    exact (keepsOps_reached prog).op hreached (fun p _ => installRuntime_reached p v)
      fun s o ho => absurd ⟨s, o, ho⟩ hop

/-! ## Main result -/

/-- **No target is missed** in the states of a run that starts with the installation of
a runtime, exactly when every registration of the run is in time. -/
theorem no_target_missed {p : Policy} {v w : CWorld κ (Wire υ)} {ls : List (Label κ (Wire υ))}
    (r : Run (BoardStep prog) (fun _ _ => True) (installRuntime p v) ls w) :
    (∀ ms u, ms <+: ls → Run (BoardStep prog) (fun _ _ => True) (installRuntime p v) ms u →
      Reached u) ↔ ∀ l ∈ ls, Timely l := by
  constructor
  · intro hall l hl
    obtain ⟨ms, rest, rfl⟩ := List.append_of_mem hl
    have hmid : ms ++ [l] <+: ms ++ l :: rest := ⟨rest, by simp⟩
    obtain ⟨u, hu⟩ := r.prefix hmid
    obtain ⟨t, ht, -, hs⟩ := hu.last
    have hbefore : Reached t := hall ms t (List.prefix_append _ _) ht
    exact (step_reached hbefore hs).mp (hall _ u hmid hu)
  · intro htimely ms u hms hu
    have hok : Run (BoardStep prog) (fun _ l => Timely l) (installRuntime p v) ms u :=
      hu.labels fun l hl => htimely l (hms.subset hl)
    exact hok.invariant (installRuntime_reached p v) fun _ _ _ h hl hs => (step_reached h hs).mpr hl

/-- A board whose runtime has just been installed. -/
def quietBoard : CWorld Nat (Wire Unit) :=
  installRuntime { place := 0, own := by simp }
    { currentState := fun _ => 0, cyclicActions := fun _ _ => [], sched := Scheduler.Model.initial
      user := { latchedCause := default, program := { program := () } } }

theorem quiet_step (w : CWorld Nat (Wire Unit)) (op : FaultOp Nat) :
    BoardStep FaultLatch.quietProgram w (w, op) (op.run (onWire FaultLatch.quietProgram) w) :=
  ⟨⟨rfl, rfl⟩, rfl⟩

/-- A target registered before the first fault is reached. -/
theorem no_target_missed_registered :
    Reached (requestFault (onWire FaultLatch.quietProgram) 7
      (registerFaultPropagation 0 5 quietBoard)) := by
  have r : Run (BoardStep FaultLatch.quietProgram) (fun _ _ => True) quietBoard _
      (requestFault (onWire FaultLatch.quietProgram) 7 (registerFaultPropagation 0 5 quietBoard)) :=
    .cons trivial (quiet_step quietBoard (.registerFaultPropagation 0 5))
      (.single trivial (quiet_step _ (.requestFault 7)))
  refine (no_target_missed r).mpr ?_ _ _ (List.prefix_refl _) r
  intro l hl
  rcases List.mem_pair.mp hl with rfl | rfl
  · exact .inl rfl
  · trivial

/-- A target registered after the first fault is missed. -/
theorem target_missed : ¬ ∀ ls w,
    Run (BoardStep FaultLatch.quietProgram) (fun _ _ => True) quietBoard ls w → Reached w := by
  intro hall
  have r : Run (BoardStep FaultLatch.quietProgram) (fun _ _ => True) quietBoard _
      (registerFaultPropagation 0 5 (requestFault (onWire FaultLatch.quietProgram) 7 quietBoard)) :=
    .cons trivial (quiet_step quietBoard (.requestFault 7))
      (.single trivial (quiet_step _ (.registerFaultPropagation 0 5)))
  have hnew := hall _ _ r rfl { socket := 0, faultOrder := 5 } List.mem_cons_self
  rcases hnew with hpending | hsent
  · cases hpending
  · exact absurd hsent List.not_mem_nil

end StLib.Protections.Propagation
