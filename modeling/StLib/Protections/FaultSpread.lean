import StLib.Protections.Propagation

/-! # Faults across boards

Boards whose fault controllers send their fault orders to each other. A fault order
that arrives calls what its receiver has set as the order's callback: a request for a
fault when the receiver has registered that order with a target of its own, and
whatever the program gave it otherwise. -/
namespace StLib.Protections.FaultSpread

open StLib.Base.Runs
open StLib.StateMachine.Model
open StLib.Protections.FaultController StLib.Protections.FaultRequest
open StLib.Protections.ControllerRules StLib.Protections.Propagation

variable {ι κ υ : Type}

/-! ## Networks -/

/-- What stays as it is: the board at the other end of each socket, the id of each
order, `Order::orders` and the callbacks that the programs gave their orders.
`peerCause` is the cause of `on_fault_order_received`. -/
structure Network (ι κ υ : Type) where
  program : ι → Program κ υ
  peer : ι → Nat → ι
  orderId : ι → Nat → Nat
  orders : ι → Nat → Option Nat
  callback : ι → Nat → List (Act κ υ)
  peerCause : κ

structure FaultMessage (ι : Type) where
  receiver : ι
  id : Nat
deriving DecidableEq

structure NetState (ι κ υ : Type) where
  boards : ι → CWorld κ (Wire υ)
  inFlight : List (FaultMessage ι) := []

def targets (w : CWorld κ (Wire υ)) : List PropagationTarget := w.user.propagationTargets

variable (net : Network ι κ υ)

def Network.message (i : ι) (p : Nat × Nat) : FaultMessage ι :=
  { receiver := net.peer i p.1, id := net.orderId i p.2 }

/-- `Order::process_data` of an order without values. `register_fault_propagation` has
set the callback of the orders in the table. -/
def processOrder (j : ι) (id : Nat) (w : CWorld κ (Wire υ)) : CWorld κ (Wire υ) :=
  match net.orders j id with
  | some o =>
    if o ∈ (targets w).map PropagationTarget.faultOrder then
      requestFault (onWire (net.program j)) net.peerCause w
    else
      runActs (requestFault (onWire (net.program j))) ((net.callback j o).map actOnWire) w
  | none => w

section steps
variable [DecidableEq ι]

/-- The board `i` becomes `w`, and what it has sent is in flight. -/
def NetState.settle (s : NetState ι κ υ) (i : ι) (w : CWorld κ (Wire υ))
    (inFlight : List (FaultMessage ι)) : NetState ι κ υ where
  boards := Function.update s.boards i w
  inFlight := inFlight ++ ((sent w).drop (sent (s.boards i)).length).map (net.message i)

/-- A call on a board, or the arrival of a fault order, with the world it finds. -/
inductive NetLabel (ι κ υ : Type)
  | call (i : ι) (found : CWorld κ (Wire υ)) (op : FaultOp κ)
  | deliver (m : FaultMessage ι) (found : CWorld κ (Wire υ))

def NetStep [Inhabited κ] (s : NetState ι κ υ) : NetLabel ι κ υ → NetState ι κ υ → Prop
  | .call i found op, s' => BoardAround (s.boards i) found ∧
      s' = s.settle net i (op.run (onWire (net.program i)) found) s.inFlight
  | .deliver m found, s' => m ∈ s.inFlight ∧ BoardAround (s.boards m.receiver) found ∧
      s' = s.settle net m.receiver (processOrder net m.receiver m.id found) (s.inFlight.erase m)

end steps

/-- Targets are registered before the first fault, and no runtime is installed. -/
def BeforeFaults (s : NetState ι κ υ) : NetLabel ι κ υ → Prop
  | .call _ _ (.installRuntime _) => False
  | .call _ _ (.registerFaultPropagation _ _) => ∀ i, isFaulted (s.boards i) = false
  | _ => True

/-- No target is registered, and nothing has been sent. -/
structure Unwired (s : NetState ι κ υ) : Prop where
  targets : ∀ i, targets (s.boards i) = []
  sent : ∀ i, sent (s.boards i) = []
  inFlight : s.inFlight = []

/-- The board has registered the order of this id. -/
def Hears (w : CWorld κ (Wire υ)) (j : ι) (id : Nat) : Prop :=
  ∃ o, net.orders j id = some o ∧ o ∈ (targets w).map PropagationTarget.faultOrder

/-! ## What a board sends -/

def marked (l : List PropagationTarget) : List (Nat × Nat) :=
  (l.filter PropagationTarget.pending).map key

/-- The targets that the order is sent to. -/
def tried (retry : Bool) (l : List PropagationTarget) : List (Nat × Nat) :=
  (l.filter fun t => !retry || t.pending).map key

theorem tried_first (l : List PropagationTarget) : tried false l = l.map key :=
  congrArg (List.map key) (List.filter_eq_self.mpr fun _ _ => rfl)

section sending
variable (prog : Program κ υ) (retry : Bool)

theorem sendFaultOrders_keys (l : List PropagationTarget) (u : Wire υ) :
    (sendFaultOrders (onWire prog) retry l u).1.map key = l.map key := by
  induction l generalizing u with
  | nil => rfl
  | cons t l ih =>
    rw [sendFaultOrders]
    split
    · exact congrArg (key t :: ·) (ih u)
    · exact congrArg (key t :: ·) (ih _)

/-- What has been sent and what is marked make up what there was and what was tried. -/
theorem sendFaultOrders_perm (l : List PropagationTarget) (u : Wire υ) :
    ((sendFaultOrders (onWire prog) retry l u).2.sent ++
        marked (sendFaultOrders (onWire prog) retry l u).1).Perm (u.sent ++ tried retry l) := by
  unfold marked tried
  induction l generalizing u with
  | nil => exact .refl _
  | cons t l ih =>
    rw [sendFaultOrders, List.filter_cons]
    split
    next hskip =>
      obtain ⟨rfl, hpending⟩ : retry = true ∧ t.pending = false := by simpa using hskip
      dsimp only
      rw [hpending, List.filter_cons_of_neg (by rw [hpending]; exact Bool.false_ne_true)]
      exact ih u
    next htry =>
      have htried : (!retry || t.pending) = true := by
        revert htry
        cases retry <;> cases t.pending <;> simp
      rw [if_pos htried]
      have hrest := ih ((onWire prog).sendOrder t u).2
      cases hsent : (prog.sendOrder t u.program).1 with
      | true =>
        have hlog : ((onWire prog).sendOrder t u).2.sent = u.sent ++ [key t] := if_pos hsent
        have hflag : ((onWire prog).sendOrder t u).1 = true := hsent
        rw [hlog, List.append_assoc] at hrest
        dsimp only
        rw [hflag, List.filter_cons_of_neg Bool.false_ne_true]
        exact hrest
      | false =>
        have hlog : ((onWire prog).sendOrder t u).2.sent = u.sent :=
          if_neg (by rw [hsent]; exact Bool.false_ne_true)
        have hflag : ((onWire prog).sendOrder t u).1 = false := hsent
        rw [hlog] at hrest
        dsimp only
        rw [hflag, List.filter_cons_of_pos rfl]
        exact List.perm_middle.trans ((hrest.cons (key t)).trans List.perm_middle.symm)

end sending

/-- Before a fault nothing has been sent; from then on the targets are those that have
been sent the order and those that are marked. -/
structure Balanced (w : CWorld κ (Wire υ)) : Prop where
  calm : w.user.faulted = false → sent w = [] ∧ ∀ t ∈ targets w, t.pending = false
  spread : w.user.faulted = true → (sent w ++ marked (targets w)).Perm ((targets w).map key)

/-- What a call leaves of a board. -/
structure Since (w₀ w : CWorld κ (Wire υ)) : Prop where
  balanced : Balanced w
  faulted : w₀.user.faulted = true → w.user.faulted = true
  sent : sent w₀ <+: sent w
  keys : (targets w).map key = (targets w₀).map key

section boards
variable {prog : Program κ υ} {w₀ w v : CWorld κ (Wire υ)}

theorem Since.congr (h : Since w₀ w) (hf : v.user.faulted = w.user.faulted)
    (ht : targets v = targets w) (hs : Propagation.sent v = Propagation.sent w) : Since w₀ v := by
  refine ⟨⟨?_, ?_⟩, ?_, hs ▸ h.sent, ht ▸ h.keys⟩
  · rw [hf, hs, ht]; exact h.balanced.calm
  · rw [hf, hs, ht]; exact h.balanced.spread
  · rw [hf]; exact h.faulted

/-- While the global machine is switched to `FAULT` nothing is sent. -/
theorem keepsMembers_serving (T : List PropagationTarget) (S : List (Nat × Nat)) :
    KeepsMembers (onWire prog) requestAgain
      fun v => v.user.faulted = true ∧ targets v = T ∧ Propagation.sent v = S where
  congr h hu := by
    unfold targets Propagation.sent
    rw [hu]
    exact h
  action _ := acts_sent fun _ _ hx ⟨hf, ht, hs⟩ => ⟨hf, ht, hx.trans hs⟩
  guard _ := acts_sent fun _ _ hx ⟨hf, ht, hs⟩ => ⟨hf, ht, hx.trans hs⟩
  addStateOrders _ _ h := h
  removeStateOrders _ _ h := h
  entries _ h := h
  request _ _ h := h

theorem propagateFault_since {retry : Bool} (hf : w.user.faulted = true)
    (hsent : Propagation.sent w₀ <+: Propagation.sent w)
    (hkeys : (targets w).map key = (targets w₀).map key)
    (hperm : (Propagation.sent w ++ tried retry (targets w)).Perm ((targets w).map key)) : Since w₀ (propagateFault (onWire prog) retry w) := by
  have hkept := sendFaultOrders_keys prog retry (targets w) w.user.program
  have hall := (sendFaultOrders_perm prog retry (targets w) w.user.program).trans hperm
  rw [← hkept] at hall
  exact ⟨⟨fun hn => absurd (hf.symm.trans hn) nofun, fun _ => hall⟩, fun _ => hf,
    hsent.trans (sendFaultOrders_sent prog retry _ _), hkept.trans hkeys⟩

/-- **A request** faults the board, and the first one sends the order to every target. -/
theorem requestFault_since (c : κ) (h : Since w₀ w) :
    Since w₀ (requestFault (onWire prog) c w) ∧
      (requestFault (onWire prog) c w).user.faulted = true := by
  cases hf : w.user.faulted with
  | true =>
    rw [requestAgain_eq _ c hf]
    exact ⟨h.congr rfl rfl rfl, hf⟩
  | false =>
    obtain ⟨hnone, -⟩ := h.balanced.calm hf
    have hlatched : (latch c (recordRequest c w)).user.faulted = true ∧
        targets (latch c (recordRequest c w)) = targets w ∧
        Propagation.sent (latch c (recordRequest c w)) = [] := ⟨rfl, rfl, hnone⟩
    obtain ⟨hfs, hts, hss⟩ := (keepsMembers_serving (targets w) []).switchToFault hlatched
    rw [requestFault_first _ c hf]
    generalize switchToFault (onWire prog) requestAgain (latch c (recordRequest c w)) = v
      at hfs hts hss
    have hfirst : Since w₀ (propagateFault (onWire prog) false v) := by
      refine propagateFault_since hfs ?_ (hts ▸ h.keys) ?_
      · rw [hss, ← hnone]
        exact h.sent
      · rw [hss, List.nil_append, tried_first]
    exact ⟨hfirst.congr rfl rfl rfl, hfs⟩

theorem retry_since (h : Since w₀ w) (hf : w.user.faulted = true) :
    Since w₀ (propagateFault (onWire prog) true w) :=
  propagateFault_since hf h.sent h.keys (h.balanced.spread hf)

theorem keepsOps_since : KeepsOps (onWire prog) (Since w₀) where
  congr {w v} h hu := h.congr (by rw [hu]) (by unfold targets; rw [hu])
    (by unfold Propagation.sent; rw [hu])
  action _ := acts_sent fun _ _ hx h => h.congr rfl rfl hx
  guard _ := acts_sent fun _ _ hx h => h.congr rfl rfl hx
  addStateOrders _ _ h := h.congr rfl rfl rfl
  removeStateOrders _ _ h := h.congr rfl rfl rfl
  entries _ h := h.congr rfl rfl rfl
  request c _ h := (requestFault_since c h).1
  runtimeStarted _ h := h.congr rfl rfl rfl
  retry _ _ hf h := retry_since (h.congr rfl rfl rfl) hf

theorem Balanced.since (h : Balanced w) : Since w w := ⟨h, id, List.prefix_refl _, rfl⟩

theorem around_balanced (hv : BoardAround w v) (h : Balanced w) : Since w v := by
  obtain ⟨ha, hs⟩ := hv
  have hu : v.user = { w.user with program := v.user.program } := congrArg World.user ha
  exact h.since.congr (by rw [hu]) (by unfold targets; rw [hu]) hs

/-- A board that hears the order that arrives is faulted by it. -/
theorem processOrder_since (net : Network ι κ υ) (j : ι) (id : Nat) (h : Since w₀ w) :
    Since w₀ (processOrder net j id w) ∧
      (Hears net w j id → (processOrder net j id w).user.faulted = true) := by
  unfold processOrder Hears
  split
  next o ho =>
    split
    next hmem =>
      obtain ⟨hs, hf⟩ := @requestFault_since _ _ (net.program j) _ _ net.peerCause h
      exact ⟨hs, fun _ => hf⟩
    next hmem =>
      refine ⟨runActs_mem (P := Since w₀) (fun c _ hv => (requestFault_since c hv).1)
        (acts_sent fun _ _ hx hv => hv.congr rfl rfl hx) h, ?_⟩
      rintro ⟨o', ho', hmem'⟩
      rw [ho] at ho'
      cases ho'
      exact absurd hmem' hmem
  next hn =>
    refine ⟨h, ?_⟩
    rintro ⟨o, ho, -⟩
    exact absurd (hn.symm.trans ho) nofun

/-- A registration on a board without a fault. -/
theorem register_balanced (socket faultOrder : Nat) (h : Balanced w) (hf : w.user.faulted = false) :
    Balanced (registerFaultPropagation socket faultOrder w) ∧
      Propagation.sent (registerFaultPropagation socket faultOrder w) = Propagation.sent w := by
  obtain ⟨hs, hp⟩ := h.calm hf
  unfold registerFaultPropagation mapUser
  dsimp only
  split
  next => exact ⟨⟨h.calm, h.spread⟩, rfl⟩
  next =>
    refine ⟨⟨fun _ => ⟨hs, fun t ht => ?_⟩, fun hn => absurd (hf.symm.trans hn) nofun⟩, rfl⟩
    rcases List.mem_append.mp ht with ht | ht
    · exact hp t ht
    · rw [List.mem_singleton.mp ht]

end boards

/-! ## Steps of the network -/

/-- If the board that the order is sent to hears it, it is faulted. -/
def Heard (s : NetState ι κ υ) (m : FaultMessage ι) : Prop :=
  Hears net (s.boards m.receiver) m.receiver m.id → isFaulted (s.boards m.receiver) = true

/-- What has been sent is in flight or has been heard. -/
structure Spread (s : NetState ι κ υ) : Prop where
  balanced : ∀ i, Balanced (s.boards i)
  received : ∀ i, ∀ p ∈ Propagation.sent (s.boards i),
    net.message i p ∈ s.inFlight ∨ Heard net s (net.message i p)

variable {net} {s : NetState ι κ υ} {w w₀ : CWorld κ (Wire υ)}

theorem Since.hears (h : Since w₀ w) {j : ι} {id : Nat} : Hears net w j id ↔ Hears net w₀ j id := by
  have horders : (targets w).map PropagationTarget.faultOrder =
      (targets w₀).map PropagationTarget.faultOrder := by
    have hsnd := congrArg (List.map Prod.snd) h.keys
    rwa [List.map_map, List.map_map] at hsnd
  unfold Hears
  rw [horders]

theorem spread_of_unwired (h : Unwired s) : Spread net s where
  balanced i := by
    refine ⟨fun _ => ⟨h.sent i, fun t ht => ?_⟩, fun _ => ?_⟩
    · rw [h.targets i] at ht
      exact absurd ht List.not_mem_nil
    · rw [h.targets i, h.sent i]
      exact .refl _
  received i p hp := by
    rw [h.sent i] at hp
    exact absurd hp List.not_mem_nil

theorem calm_sent (h : Spread net s) {i : ι} (hi : isFaulted (s.boards i) = false) :
    Propagation.sent (s.boards i) = [] :=
  ((h.balanced i).calm hi).1

variable [DecidableEq ι]

theorem settle_self (i : ι) (F : List (FaultMessage ι)) : (s.settle net i w F).boards i = w :=
  Function.update_self ..

theorem settle_of_ne {i j : ι} (hj : j ≠ i) (F : List (FaultMessage ι)) :
    (s.settle net i w F).boards j = s.boards j :=
  Function.update_of_ne hj ..

theorem settle_balanced (h : Spread net s) {i : ι} (hw : Balanced w) (F : List (FaultMessage ι))
    (j : ι) : Balanced ((s.settle net i w F).boards j) := by
  rcases eq_or_ne j i with rfl | hj
  · rw [settle_self]
    exact hw
  · rw [settle_of_ne hj]
    exact h.balanced j

/-- A board that changes as a call leaves it hears what it has heard. -/
theorem heard_settle {i : ι} {F : List (FaultMessage ι)} (hw : Since (s.boards i) w)
    {m : FaultMessage ι} (h : Heard net s m) : Heard net (s.settle net i w F) m := by
  unfold Heard
  rcases eq_or_ne m.receiver i with hi | hi
  · subst hi
    rw [settle_self]
    exact fun hears => hw.faulted (h (hw.hears.mp hears))
  · rw [settle_of_ne hi]
    exact h

/-- **A step of one board**: the orders that stay in flight or are heard, and those that
the board sends, are all that has been sent. -/
theorem settle_spread (h : Spread net s) {i : ι} {F : List (FaultMessage ι)}
    (hw : Since (s.boards i) w)
    (hF : ∀ m ∈ s.inFlight, m ∈ F ∨ Heard net (s.settle net i w F) m) :
    Spread net (s.settle net i w F) where
  balanced := settle_balanced h hw.balanced F
  received j p hp := by
    have hold : ∀ j, ∀ p ∈ Propagation.sent (s.boards j),
        net.message j p ∈ (s.settle net i w F).inFlight ∨
          Heard net (s.settle net i w F) (net.message j p) := by
      intro j p hp
      rcases h.received j p hp with hfly | hheard
      · exact (hF _ hfly).imp_left (List.mem_append_left _)
      · exact .inr (heard_settle hw hheard)
    rcases eq_or_ne j i with rfl | hj
    · rw [settle_self] at hp
      obtain ⟨new, hnew⟩ := hw.sent
      rw [← hnew] at hp
      rcases List.mem_append.mp hp with hp | hp
      · exact hold j p hp
      · refine .inl (List.mem_append_right _ (List.mem_map_of_mem ?_))
        rw [← hnew, List.drop_left]
        exact hp
    · rw [settle_of_ne hj] at hp
      exact hold j p hp

/-- Before the first fault nothing is sent, whatever is registered. -/
theorem register_spread (h : Spread net s) (hcalm : ∀ i, isFaulted (s.boards i) = false) {i : ι}
    {v : CWorld κ (Wire υ)} (hv : BoardAround (s.boards i) v) (socket faultOrder : Nat) :
    Spread net (s.settle net i (registerFaultPropagation socket faultOrder v) s.inFlight) := by
  have hnone : ∀ j, Propagation.sent (s.boards j) = [] := fun j => calm_sent h (hcalm j)
  have hfound : v.user.faulted = false := by
    have hu : v.user = { (s.boards i).user with program := v.user.program } :=
      congrArg World.user hv.1
    rw [hu]
    exact hcalm i
  obtain ⟨hbal, hsent⟩ := register_balanced socket faultOrder
    (around_balanced hv (h.balanced i)).balanced hfound
  refine ⟨settle_balanced h hbal _, fun j p hp => ?_⟩
  rcases eq_or_ne j i with rfl | hj
  · rw [settle_self, hsent, hv.2, hnone j] at hp
    exact absurd hp List.not_mem_nil
  · rw [settle_of_ne hj, hnone j] at hp
    exact absurd hp List.not_mem_nil

variable [Inhabited κ]

/-- **A step** of the network. -/
theorem step_spread {s' : NetState ι κ υ} {l : NetLabel ι κ υ} (h : Spread net s)
    (hok : BeforeFaults s l) (hs : NetStep net s l s') : Spread net s' := by
  cases l with
  | deliver m found =>
    obtain ⟨hm, hv, rfl⟩ := hs
    have hfound := around_balanced hv (h.balanced m.receiver)
    obtain ⟨hw, hheard⟩ := processOrder_since net m.receiver m.id hfound
    refine settle_spread h hw fun m' hm' => ?_
    rcases eq_or_ne m' m with rfl | hne
    · right
      unfold Heard
      rw [settle_self]
      exact fun hears => hheard (hfound.hears.mpr (hw.hears.mp hears))
    · exact .inl ((List.mem_erase_of_ne hne).mpr hm')
  | call i found op =>
    obtain ⟨hv, rfl⟩ := hs
    by_cases hr : ∃ socket faultOrder, op = .registerFaultPropagation socket faultOrder
    · obtain ⟨socket, faultOrder, rfl⟩ := hr
      exact register_spread h hok hv socket faultOrder
    · have hi : ∀ p, op ≠ .installRuntime p := by
        rintro p rfl
        exact hok
      have hw : Since (s.boards i) (op.run (onWire (net.program i)) found) :=
        keepsOps_since.op (around_balanced hv (h.balanced i)) (fun p hp => absurd hp (hi p))
          fun a b hop => absurd ⟨a, b, hop⟩ hr
      exact settle_spread h hw fun m hm => .inl hm

/-! ## Main result -/

/-- **The spread of a fault**: no board sends its order to a target twice, and once no
target is marked and nothing is in flight, a target of a faulted board that hears the
order is faulted. -/
theorem fault_spread {s₀ s : NetState ι κ υ} {ls : List (NetLabel ι κ υ)} (h0 : Unwired s₀)
    (r : Run (NetStep net) BeforeFaults s₀ ls s) :
    (∀ i, (Propagation.sent (s.boards i)).Subperm ((targets (s.boards i)).map key)) ∧
    ((∀ i, ∀ t ∈ targets (s.boards i), t.pending = false) → s.inFlight = [] →
      ∀ i, isFaulted (s.boards i) = true → ∀ t ∈ targets (s.boards i),
        Hears net (s.boards (net.peer i t.socket)) (net.peer i t.socket)
          (net.orderId i t.faultOrder) →
        isFaulted (s.boards (net.peer i t.socket)) = true) := by
  have h : Spread net s := r.invariant (spread_of_unwired h0) fun _ _ _ => step_spread
  refine ⟨fun i => ?_, fun hnone hempty i hf t ht hears => ?_⟩
  · cases hf : (s.boards i).user.faulted with
    | false =>
      rw [calm_sent h hf]
      exact List.nil_subperm
    | true =>
      exact (List.sublist_append_left _ _).subperm.trans ((h.balanced i).spread hf).subperm
  · have hall := (h.balanced i).spread hf
    have hmarked : marked (targets (s.boards i)) = [] := by
      unfold marked
      rw [List.filter_eq_nil_iff.mpr fun t ht => by rw [hnone i t ht]; nofun]
      rfl
    rw [hmarked, List.append_nil] at hall
    have hsent : key t ∈ Propagation.sent (s.boards i) :=
      hall.mem_iff.mpr (List.mem_map_of_mem ht)
    rcases h.received i _ hsent with hfly | hheard
    · rw [hempty] at hfly
      exact absurd hfly List.not_mem_nil
    · exact hheard hears

/-- Two boards, with an order of the same id. -/
def pairNetwork : Network Bool Nat Unit where
  program _ := FaultLatch.quietProgram
  peer i _ := !i
  orderId _ _ := 1
  orders _ id := if id = 1 then some 5 else none
  callback _ _ := []
  peerCause := 9

def pairStart : NetState Bool Nat Unit := { boards := fun _ => quietBoard }

/-- A call on a board of the pair. -/
def pairCall (s : NetState Bool Nat Unit) (i : Bool) (op : FaultOp Nat) : NetState Bool Nat Unit :=
  s.settle pairNetwork i (op.run (onWire FaultLatch.quietProgram) (s.boards i)) s.inFlight

/-- The order arrives at a board of the pair. -/
def pairDeliver (s : NetState Bool Nat Unit) (j : Bool) : NetState Bool Nat Unit :=
  s.settle pairNetwork j (processOrder pairNetwork j 1 (s.boards j))
    (s.inFlight.erase { receiver := j, id := 1 })

theorem pairStart_unwired : Unwired pairStart := ⟨fun _ => rfl, fun _ => rfl, rfl⟩

section pair
variable {s t : NetState Bool Nat Unit} {ls : List (NetLabel Bool Nat Unit)}
  (r : Run (NetStep pairNetwork) BeforeFaults s ls t)
include r

theorem pairCall_run (i : Bool) (op : FaultOp Nat) (h : BeforeFaults t (.call i (t.boards i) op)) :
    Run (NetStep pairNetwork) BeforeFaults s (ls ++ [.call i (t.boards i) op]) (pairCall t i op) :=
  .snoc r h ⟨⟨rfl, rfl⟩, rfl⟩

theorem pairDeliver_run (j : Bool) (h : { receiver := j, id := 1 } ∈ t.inFlight) :
    Run (NetStep pairNetwork) BeforeFaults s
      (ls ++ [.deliver { receiver := j, id := 1 } (t.boards j)]) (pairDeliver t j) :=
  .snoc r trivial ⟨h, ⟨rfl, rfl⟩, rfl⟩

end pair

/-- Boards that have registered each other: the order arrives, and its echo too. -/
theorem fault_spread_mutual :
    isFaulted ((pairDeliver (pairDeliver (pairCall (pairCall (pairCall pairStart
      true (.registerFaultPropagation 0 5)) false (.registerFaultPropagation 0 5))
      false (.requestFault 7)) true) false).boards true) = true := by
  have r₁ := pairCall_run (.nil pairStart) true (.registerFaultPropagation 0 5) fun _ => rfl
  have r₂ := pairCall_run r₁ false (.registerFaultPropagation 0 5) (by intro i; cases i <;> rfl)
  have r₃ := pairCall_run r₂ false (.requestFault 7) trivial
  have r₄ := pairDeliver_run r₃ true (by decide)
  have r₅ := pairDeliver_run r₄ false (by decide)
  obtain ⟨-, hspread⟩ := fault_spread pairStart_unwired r₅
  exact hspread (by decide) (by decide) false (by decide) { socket := 0, faultOrder := 5 }
    (by decide) ⟨5, rfl, by decide⟩

/-- A board that has registered no target does not hear the order. -/
theorem fault_not_spread : ¬ ∀ ls s, Run (NetStep pairNetwork) BeforeFaults pairStart ls s →
    (∀ i, ∀ t ∈ targets (s.boards i), t.pending = false) → s.inFlight = [] →
    ∀ i, isFaulted (s.boards i) = true → ∀ t ∈ targets (s.boards i),
      isFaulted (s.boards (pairNetwork.peer i t.socket)) = true := by
  intro hall
  have r₁ := pairCall_run (.nil pairStart) false (.registerFaultPropagation 0 5) fun _ => rfl
  have r₂ := pairCall_run r₁ false (.requestFault 7) trivial
  have r₃ := pairDeliver_run r₂ true (by decide)
  have hfault := hall _ _ r₃ (by decide) (by decide) false (by decide)
    { socket := 0, faultOrder := 5 } (by decide)
  revert hfault
  decide

end StLib.Protections.FaultSpread
