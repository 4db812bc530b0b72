import StLib.Protections.ControllerRules
import StLib.Protections.EngineFaults

/-! # Which edges are reported

An evaluation publishes the edges of the rules that are not in `FAULT`, as many as an
evaluation holds. Of the rules in `FAULT` it reports the first one, by a request, when the
last request of the protection is old enough. -/
namespace StLib.Protections.EdgeReports

open StLib.Protections.Model
open StLib.Protections.FaultController StLib.Protections.FaultRequest
open StLib.Protections.ControllerRules StLib.Protections.ProtectionEngine
open StLib.Protections.EngineFaults

/-- `FaultCause`, a runtime one with what its record shows. The record of a cause is
published as urgent, with the state `FAULT`. -/
inductive FaultCause (ρ : Type)
  | runtime (payload : ρ)
  | protection (origin : String) (edge : RuleEdge) (snapshot : RuleSnapshot)

variable {ρ υ : Type}

/-- The program around, with `FaultCause::protection`. -/
def engineProgram (prog : Program (FaultCause ρ) υ) : EngineProgram (FaultCause ρ) υ :=
  { prog with protectionCause := .protection }

/-! ## One evaluation of a protection -/

theorem add_events (evaluation : ProtectionEvaluation) (x : RuleEvaluation) :
    (evaluation.add x).events =
      if x.edge ≠ .none ∧ evaluation.events.length < maxRulesPerProtection then
        evaluation.events ++ [x] else evaluation.events := by
  have hkept : ∀ e : ProtectionEvaluation,
      (if x.state = .fault ∧ !e.hasActiveFault then
          { e with
            hasActiveFault := true
            activeFaultEdge := x.edge
            activeFaultSnapshot := x.snapshot
            aggregatedState := .fault }
        else if e.aggregatedState ≠ .fault ∧ x.state = .warning then
          { e with aggregatedState := .warning }
        else e).events = e.events := by
    intro e
    split
    next => rfl
    next => split <;> rfl
  rw [ProtectionEvaluation.add, hkept]
  split <;> rfl

/-- An edge is left out of the events only when they are full. -/
theorem foldl_events (l : List RuleEvaluation) (evaluation : ProtectionEvaluation)
    (h : evaluation.events.length ≤ maxRulesPerProtection) :
    (l.foldl ProtectionEvaluation.add evaluation).events =
      (evaluation.events ++ l.filter fun x => x.edge ≠ .none).take maxRulesPerProtection := by
  induction l generalizing evaluation with
  | nil => rw [List.filter_nil, List.append_nil, List.take_of_length_le h]; rfl
  | cons x l ih =>
    have hadd := add_events evaluation x
    rw [List.foldl_cons]
    by_cases hedge : x.edge ≠ .none
    · rw [List.filter_cons_of_pos (by simpa using hedge)]
      by_cases hroom : evaluation.events.length < maxRulesPerProtection
      · rw [if_pos ⟨hedge, hroom⟩] at hadd
        rw [ih _ (by rw [hadd, List.length_append]; exact hroom), hadd, List.append_assoc]
        rfl
      · rw [if_neg fun hc => hroom hc.2] at hadd
        have hfull : evaluation.events.length = maxRulesPerProtection := by omega
        rw [ih _ (by rw [hadd]; exact h), hadd, ← hfull, List.take_left, List.take_left]
    · rw [if_neg fun hc => hedge hc.1] at hadd
      rw [List.filter_cons_of_neg (by simpa using hedge), ih _ (by rw [hadd]; exact h), hadd]

/-- The fault that an evaluation reports. -/
def activeFault (evaluation : ProtectionEvaluation) : Option (RuleEdge × RuleSnapshot) :=
  if evaluation.hasActiveFault then
    some (evaluation.activeFaultEdge, evaluation.activeFaultSnapshot)
  else none

theorem add_activeFault (evaluation : ProtectionEvaluation) (x : RuleEvaluation) :
    activeFault (evaluation.add x) =
      if evaluation.hasActiveFault then activeFault evaluation
      else if x.state = .fault then some (x.edge, x.snapshot) else none := by
  have hkept : ∀ e : ProtectionEvaluation,
      activeFault (if x.state = .fault ∧ !e.hasActiveFault then
          { e with
            hasActiveFault := true
            activeFaultEdge := x.edge
            activeFaultSnapshot := x.snapshot
            aggregatedState := .fault }
        else if e.aggregatedState ≠ .fault ∧ x.state = .warning then
          { e with aggregatedState := .warning }
        else e) =
      if e.hasActiveFault then activeFault e
      else if x.state = .fault then some (x.edge, x.snapshot) else none := by
    intro e
    by_cases hactive : e.hasActiveFault = true
    · rw [if_neg fun hc => by rw [hactive] at hc; exact absurd hc.2 Bool.false_ne_true, if_pos hactive]
      split <;> rfl
    · rw [if_neg hactive]
      have hno : (!e.hasActiveFault) = true := by simpa using hactive
      by_cases hf : x.state = .fault
      · rw [if_pos ⟨hf, hno⟩, if_pos hf]
        rfl
      · rw [if_neg fun hc => hf hc.1, if_neg hf]
        split
        next => exact if_neg hactive
        next => exact if_neg hactive
  rw [ProtectionEvaluation.add, hkept]
  split <;> rfl

theorem activeFault_isSome (evaluation : ProtectionEvaluation) :
    (activeFault evaluation).isSome = evaluation.hasActiveFault := by
  unfold activeFault
  cases evaluation.hasActiveFault <;> rfl

/-- The first rule in `FAULT` is the one reported. -/
theorem foldl_activeFault (l : List RuleEvaluation) (evaluation : ProtectionEvaluation) :
    activeFault (l.foldl ProtectionEvaluation.add evaluation) =
      if evaluation.hasActiveFault then activeFault evaluation
      else (l.find? fun x => x.state = .fault).map fun x => (x.edge, x.snapshot) := by
  induction l generalizing evaluation with
  | nil =>
    by_cases hactive : evaluation.hasActiveFault = true
    · rw [if_pos hactive]; rfl
    · rw [if_neg hactive]; exact if_neg hactive
  | cons x l ih =>
    have hadd := add_activeFault evaluation x
    rw [List.foldl_cons, ih, hadd, ← activeFault_isSome, hadd]
    by_cases hactive : evaluation.hasActiveFault = true
    · have hsome : (activeFault evaluation).isSome = true := by rwa [activeFault_isSome]
      rw [if_pos hactive, if_pos hsome, if_pos hactive]
    · rw [if_neg hactive, if_neg hactive]
      by_cases hf : x.state = .fault
      · rw [if_pos hf, List.find?_cons_of_pos (by simpa using hf)]
        rfl
      · rw [if_neg hf, List.find?_cons_of_neg (by simpa using hf)]
        rfl

/-- The state that an edge leads to. -/
theorem advance_edge (tracker : RuleStateTracker) (s : RuleState) :
    ((tracker.advance s).1 = .faultRaised → s = .fault) ∧
      ((tracker.advance s).1 ≠ .none → (tracker.advance s).1 ≠ .faultRaised → s ≠ .fault) := by
  unfold RuleStateTracker.advance
  cases s <;> cases tracker.lastState <;> decide

/-- Only an edge `FAULT_RAISED` leads to `FAULT`. -/
def EdgeFits (x : RuleEvaluation) : Prop :=
  (x.edge = .faultRaised → x.state = .fault) ∧
    (x.edge ≠ .none → x.edge ≠ .faultRaised → x.state ≠ .fault)

section Rules

variable {S : Type} [ProtectionSample S]

theorem rule_edgeFits (rule : RuleModel S) (sample : S) (nowUs : BitVec 64) :
    EdgeFits (rule.evaluate sample nowUs).1 := by
  cases rule with
  | timeAccumulation rule => exact advance_edge _ _
  | _ => exact advance_edge _ _

theorem ruleEvaluations_edgeFits (sample : S) (rules : List (RuleModel S)) (nowUs : Nat → BitVec 64) :
    ∀ x ∈ ruleEvaluations sample rules nowUs, EdgeFits x := by
  induction rules generalizing nowUs with
  | nil => exact fun x hx => absurd hx List.not_mem_nil
  | cons rule rest ih =>
    intro x hx
    rcases List.mem_cons.mp hx with rfl | hx
    · exact rule_edgeFits rule sample _
    · exact ih _ x hx

end Rules

/-! ## What a request publishes -/

theorem keeps_published {κ : Type} (prog : Program κ υ) (l : List κ) :
    KeepsMembers prog requestAgain fun w => l <+: w.user.published where
  congr h hu := by rw [hu]; exact h
  action _ _ _ _ h := h
  guard _ _ _ _ h := h
  addStateOrders _ _ h := h
  removeStateOrders _ _ h := h
  entries _ h := h
  request _ _ h := h.trans (List.prefix_append _ _)

/-- A request publishes its cause last, after those of the requests made meanwhile. -/
theorem requestFault_published {κ : Type} (prog : Program κ υ) (c : κ) (w : CWorld κ υ) :
    ∃ meanwhile, (requestFault prog c w).user.published =
      w.user.published ++ meanwhile ++ [c] := by
  by_cases hf : w.user.faulted = true
  · rw [requestAgain_eq prog c hf]
    exact ⟨[], by rw [List.append_nil]; rfl⟩
  · rw [requestFault_first prog c (by simpa using hf)]
    obtain ⟨meanwhile, hm⟩ := (keeps_published prog w.user.published).switchToFault
      (w := latch c (recordRequest c w)) (List.prefix_refl _)
    exact ⟨meanwhile, congrArg (· ++ [c]) hm.symm⟩

/-! ## What an evaluation reports -/

variable {n : Nat} {T : Fin n → Type} [∀ i, ProtectionSample (T i)]

/-- The evaluations of the rules of protection `i`. -/
def evaluations (r : Readings T) (b : Board T (FaultCause ρ) υ) (i : Fin n) :
    List RuleEvaluation :=
  ruleEvaluations (r.sample i) (b.1.protections i).rules (r.ruleTick i)

/-- Every edge of the protection's rules is published: that of a rule that enters `FAULT`
by a record of its snapshot, which is the last one of the request, and any other edge as
an event. -/
structure EdgesReported (r : Readings T) (b b' : Board T (FaultCause ρ) υ) (i : Fin n) :
    Prop where
  faults : ∀ x ∈ evaluations r b i, x.edge = .faultRaised → ∃ meanwhile,
    b'.2.user.published = b.2.user.published ++ meanwhile ++
      [.protection (b.1.protections i).name .faultRaised x.snapshot]
  others : ∀ x ∈ evaluations r b i, x.edge ≠ .none → x.edge ≠ .faultRaised → ∃ new,
    b'.1.events = b.1.events ++ new ∧
      { name := (b.1.protections i).name, state := x.state, edge := x.edge,
        snapshot := x.snapshot } ∈ new

/-- The protection has not requested a fault within the notification delay. -/
def Due (r : Readings T) (b : Board T (FaultCause ρ) υ) (i : Fin n) : Prop :=
  (b.1.protections i).lastFaultPublishTick ≠ 0#64 →
    notifyDelayInMicroseconds ≤ r.requestTick i - (b.1.protections i).lastFaultPublishTick

/-- A rule that enters `FAULT` is the first one in `FAULT`, or shows what that one shows,
and a request is due; any other edge is among those an evaluation holds. -/
structure Reportable (r : Readings T) (b : Board T (FaultCause ρ) υ) (i : Fin n) : Prop where
  faults : ∀ x ∈ evaluations r b i, x.edge = .faultRaised → Due r b i ∧
    ∃ first, (evaluations r b i).find? (fun x => x.state = .fault) = some first ∧
      first.edge = .faultRaised ∧ first.snapshot = x.snapshot
  others : ∀ x ∈ evaluations r b i, x.edge ≠ .none → x.edge ≠ .faultRaised →
    x ∈ ((evaluations r b i).filter fun x => x.edge ≠ .none).take maxRulesPerProtection

section Evaluation

variable (prog : Program (FaultCause ρ) υ) (r : Readings T) (b : Board T (FaultCause ρ) υ) (i : Fin n)

theorem evaluate_events : (((b.1.protections i).evaluate (r.sample i) (r.ruleTick i)).1).events =
    ((evaluations r b i).filter fun x => x.edge ≠ .none).take maxRulesPerProtection := by
  show (evaluateRules (r.sample i) (b.1.protections i).rules (r.ruleTick i) {}).1.events = _
  rw [evaluateRules_eq]
  exact foldl_events _ {} (Nat.zero_le _)

theorem evaluate_activeFault :
    activeFault ((b.1.protections i).evaluate (r.sample i) (r.ruleTick i)).1 =
      ((evaluations r b i).find? fun x => x.state = .fault).map fun x => (x.edge, x.snapshot) := by
  show activeFault (evaluateRules (r.sample i) (b.1.protections i).rules (r.ruleTick i) {}).1 = _
  rw [evaluateRules_eq]
  exact foldl_activeFault _ {}

/-- The events that an evaluation publishes. -/
theorem evaluateOne_events : (evaluateOne (engineProgram prog) r b i).1.events =
    b.1.events ++ ((((evaluations r b i).filter fun x => x.edge ≠ .none).take
      maxRulesPerProtection).filter fun x => x.state ≠ .fault).map fun x =>
        { name := (b.1.protections i).name, state := x.state, edge := x.edge,
          snapshot := x.snapshot } := by
  rw [← evaluate_events]
  unfold evaluateOne
  dsimp only
  split
  next =>
    unfold requestFaultIfDue
    dsimp only
    split <;> rfl
  next => rfl

/-- The causes that an evaluation publishes. -/
theorem evaluateOne_published :
    (((evaluations r b i).find? fun x => x.state = .fault) = none ∨ ¬ Due r b i →
      (evaluateOne (engineProgram prog) r b i).2.user.published = b.2.user.published) ∧
    ∀ first, (evaluations r b i).find? (fun x => x.state = .fault) = some first → Due r b i →
      ∃ meanwhile, (evaluateOne (engineProgram prog) r b i).2.user.published =
        b.2.user.published ++ meanwhile ++
          [.protection (b.1.protections i).name first.edge first.snapshot] := by
  have hactive := evaluate_activeFault r b i
  have hset : ∀ evaluation : ProtectionEvaluation, ∀ p : Protection (T i),
      (publishEdgeEvents p.name evaluation (b.1.setProtection i p)).protections i = p :=
    fun _ p => Function.update_self ..
  have hdue : (Due r b i) ↔ ¬ ((b.1.protections i).lastFaultPublishTick ≠ 0#64 ∧
      r.requestTick i - (b.1.protections i).lastFaultPublishTick < notifyDelayInMicroseconds) := by
    rw [Due, not_and, BitVec.not_lt]
  unfold evaluateOne requestFaultIfDue
  generalize hev : (b.1.protections i).evaluate (r.sample i) (r.ruleTick i) = ev at hactive
  obtain ⟨evaluation, p⟩ := ev
  have hp : p.name = (b.1.protections i).name ∧
      p.lastFaultPublishTick = (b.1.protections i).lastFaultPublishTick := by
    have h2 : ((b.1.protections i).evaluate (r.sample i) (r.ruleTick i)).2 = p :=
      congrArg Prod.snd hev
    rw [← h2]
    exact ⟨rfl, rfl⟩
  dsimp only at hactive ⊢
  rw [hset, hp.2, hp.1]
  constructor
  · rintro (hnone | hnot)
    · rw [hnone, Option.map_none] at hactive
      have hno : evaluation.hasActiveFault = false := by
        rw [← activeFault_isSome, hactive]
        rfl
      rw [if_neg (by rw [hno]; exact Bool.false_ne_true)]
    · rw [hdue, not_not] at hnot
      rw [if_pos hnot]
      split <;> rfl
  · intro first hfirst hd
    rw [hfirst, Option.map_some] at hactive
    have hyes : evaluation.hasActiveFault = true := by
      rw [← activeFault_isSome, hactive]
      rfl
    rw [activeFault, if_pos hyes] at hactive
    obtain ⟨he, hs⟩ := Prod.mk.inj (Option.some.inj hactive)
    rw [if_pos hyes, if_neg (hdue.mp hd), he, hs]
    exact requestFault_published prog (.protection (b.1.protections i).name first.edge first.snapshot)
      b.2

end Evaluation

theorem append_cons_ne_self {α : Type} (l m : List α) (a : α) : l ≠ l ++ m ++ [a] := by
  intro h
  have := congrArg List.length h
  simp at this

/-- Two rules of one protection, faulted above 10 and above 11. -/
def twoRules : Engine fun _ : Fin 1 => Int where
  protections _ := .new "overvoltage"
    [.above { faultThreshold := 10 }, .above { faultThreshold := 11 }]

/-- A program that does nothing. -/
def quietProgram : Program (FaultCause Unit) Unit where
  action _ := []
  guard _ := ([], fun _ => false)
  panicCause _ := .runtime ()

end StLib.Protections.EdgeReports
