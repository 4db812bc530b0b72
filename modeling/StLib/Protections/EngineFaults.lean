import StLib.Protections.FaultLatch
import StLib.Protections.ProtectionEngine
import StLib.Protections.TimeAccumulation

/-! # Faults that the protection engine finds

A protection that has published within the notification delay does not request its fault
again. The tick of its last publication is set only by a request, so the fault controller
is faulted whenever a request is skipped. -/
namespace StLib.Protections.EngineFaults

open StLib.Base.Runs
open StLib.Protections.Model
open StLib.Protections.FaultController StLib.Protections.FaultRequest StLib.Protections.FaultLatch
open StLib.Protections.ProtectionEngine

/-! ## Rules -/

section Rules

variable {S : Type} [ProtectionSample S]

/-- The evaluations of the rules of one protection. -/
def ruleEvaluations (sample : S) : List (RuleModel S) → (Nat → BitVec 64) → List RuleEvaluation
  | [], _ => []
  | rule :: rest, nowUs =>
    (rule.evaluate sample (nowUs 0)).1 :: ruleEvaluations sample rest fun i => nowUs (i + 1)

theorem evaluateRules_eq (sample : S) (rules : List (RuleModel S)) (nowUs : Nat → BitVec 64)
    (evaluation : ProtectionEvaluation) :
    (evaluateRules sample rules nowUs evaluation).1 =
      (ruleEvaluations sample rules nowUs).foldl ProtectionEvaluation.add evaluation := by
  induction rules generalizing nowUs evaluation with
  | nil => rfl
  | cons rule rest ih => exact ih _ _

theorem add_hasActiveFault (evaluation : ProtectionEvaluation) (r : RuleEvaluation) :
    (evaluation.add r).hasActiveFault = (evaluation.hasActiveFault || decide (r.state = .fault)) := by
  have hkept : ∀ e : ProtectionEvaluation, e.hasActiveFault = evaluation.hasActiveFault →
      (if r.state = .fault ∧ !e.hasActiveFault then
          { e with
            hasActiveFault := true
            activeFaultEdge := r.edge
            activeFaultSnapshot := r.snapshot
            aggregatedState := .fault }
        else if e.aggregatedState ≠ .fault ∧ r.state = .warning then
          { e with aggregatedState := .warning }
        else e).hasActiveFault = (evaluation.hasActiveFault || decide (r.state = .fault)) := by
    intro e he
    rw [← he]
    split
    next hfirst => rw [decide_eq_true hfirst.1, Bool.or_true]
    next hnot =>
      have hold : r.state = .fault → e.hasActiveFault = true := by
        intro hf
        simpa [hf] using hnot
      have hor : e.hasActiveFault = (e.hasActiveFault || decide (r.state = .fault)) := by
        cases hact : e.hasActiveFault with
        | true => rfl
        | false =>
          rw [Bool.false_or, eq_comm, decide_eq_false_iff_not]
          exact fun hf => absurd ((hold hf).symm.trans hact) nofun
      split <;> exact hor
  unfold ProtectionEvaluation.add
  split
  · exact hkept _ rfl
  · exact hkept _ rfl

theorem foldl_hasActiveFault (l : List RuleEvaluation) (evaluation : ProtectionEvaluation) :
    (l.foldl ProtectionEvaluation.add evaluation).hasActiveFault = true ↔
      evaluation.hasActiveFault = true ∨ ∃ r ∈ l, r.state = .fault := by
  induction l generalizing evaluation with
  | nil => simp
  | cons r l ih =>
    rw [List.foldl_cons, ih, add_hasActiveFault, Bool.or_eq_true, decide_eq_true_iff, or_assoc,
      List.exists_mem_cons_iff]

/-- The evaluation of a protection has an active fault when one of its rules is in `FAULT`. -/
theorem hasActiveFault_iff (p : Protection S) (sample : S) (nowUs : Nat → BitVec 64) :
    (p.evaluate sample nowUs).1.hasActiveFault = true ↔
      ∃ r ∈ ruleEvaluations sample p.rules nowUs, r.state = .fault := by
  show (evaluateRules sample p.rules nowUs {}).1.hasActiveFault = true ↔ _
  rw [evaluateRules_eq, foldl_hasActiveFault]
  exact or_iff_right nofun

end Rules

/-! ## One protection -/

variable {n : Nat} {κ υ : Type} {T : Fin n → Type} {prog : EngineProgram κ υ}

/-- A protection that has published a fault did so by a request. -/
structure Throttled (b : Board T κ υ) : Prop where
  latched : Latched b.2
  requested : ∀ i, (b.1.protections i).lastFaultPublishTick ≠ 0#64 → b.2.user.faulted = true

/-- The protection `i` is changed, and the controller stays faulted. -/
structure Evaluates (i : Fin n) (b b' : Board T κ υ) : Prop where
  throttled : Throttled b'
  stays : b.2.user.faulted = true → b'.2.user.faulted = true
  other : ∀ j, j ≠ i → b'.1.protections j = b.1.protections j

theorem setProtection_throttled {b : Board T κ υ} (h : Throttled b) (i : Fin n) (p : Protection (T i))
    (hp : p.lastFaultPublishTick ≠ 0#64 → b.2.user.faulted = true) :
    Throttled (b.1.setProtection i p, b.2) := by
  refine ⟨h.latched, fun j hj => ?_⟩
  change ((Function.update b.1.protections i p) j).lastFaultPublishTick ≠ 0#64 at hj
  rcases eq_or_ne j i with rfl | hne
  · rw [Function.update_self] at hj
    exact hp hj
  · rw [Function.update_of_ne hne] at hj
    exact h.requested j hj

theorem requestFaultIfDue_evaluates {b : Board T κ υ} (h : Throttled b) (tick : BitVec 64) (i : Fin n)
    (evaluation : ProtectionEvaluation) :
    Evaluates i b (requestFaultIfDue prog tick i evaluation b) ∧
      (requestFaultIfDue prog tick i evaluation b).2.user.faulted = true := by
  unfold requestFaultIfDue
  dsimp only
  split
  next hskip =>
    -- the throttle hides a request only when one has been made
    exact ⟨⟨h, id, fun _ _ => rfl⟩, h.requested i hskip.1⟩
  next hdue =>
    have hfaulted := fun c => @requestFault_faulted _ _ prog.toProgram c _ h.latched
    refine ⟨⟨?_, fun _ => hfaulted _, fun j hne => Function.update_of_ne hne ..⟩, hfaulted _⟩
    refine @setProtection_throttled _ _ _ _ (b.1, _) ⟨(requestFault_latched _ h.latched).1, ?_⟩ i _ ?_
    · exact fun j _ => hfaulted _
    · exact fun _ => hfaulted _

variable [∀ i, ProtectionSample (T i)]

/-- Some rule of the protection `i` evaluates to `FAULT`. -/
def FaultAt (r : Readings T) (b : Board T κ υ) (i : Fin n) : Prop :=
  ∃ e ∈ ruleEvaluations (r.sample i) (b.1.protections i).rules (r.ruleTick i), e.state = .fault

theorem evaluateOne_evaluates {b : Board T κ υ} (h : Throttled b) (r : Readings T) (i : Fin n) :
    Evaluates i b (evaluateOne prog r b i) ∧
      (FaultAt r b i → (evaluateOne prog r b i).2.user.faulted = true) := by
  have hiff := hasActiveFault_iff (b.1.protections i) (r.sample i) (r.ruleTick i)
  have hset : Throttled (publishEdgeEvents (b.1.protections i).name
      ((b.1.protections i).evaluate (r.sample i) (r.ruleTick i)).1
      (b.1.setProtection i ((b.1.protections i).evaluate (r.sample i) (r.ruleTick i)).2), b.2) := by
    have hp := setProtection_throttled h i
      ((b.1.protections i).evaluate (r.sample i) (r.ruleTick i)).2 (h.requested i)
    exact ⟨hp.latched, hp.requested⟩
  unfold evaluateOne FaultAt
  rw [← hiff]
  dsimp only
  split
  next hactive =>
    obtain ⟨he, hf⟩ := @requestFaultIfDue_evaluates _ _ _ _ prog _ hset (r.requestTick i) i
      ((b.1.protections i).evaluate (r.sample i) (r.ruleTick i)).1
    exact ⟨⟨he.throttled, he.stays, fun j hne => (he.other j hne).trans (Function.update_of_ne hne ..)⟩,
      fun _ => hf⟩
  next hquiet =>
    exact ⟨⟨hset, id, fun j hne => Function.update_of_ne hne ..⟩, fun hactive => absurd hactive hquiet⟩

/-! ## All protections -/

theorem evaluateAll {l : List (Fin n)} (hl : l.Nodup) (r : Readings T) {b : Board T κ υ}
    (h : Throttled b) :
    Throttled (l.foldl (evaluateOne prog r) b) ∧
      (b.2.user.faulted = true → (l.foldl (evaluateOne prog r) b).2.user.faulted = true) ∧
      ((∃ i ∈ l, FaultAt r b i) → (l.foldl (evaluateOne prog r) b).2.user.faulted = true) := by
  induction l generalizing b with
  | nil => exact ⟨h, id, fun ⟨_, hi, _⟩ => nomatch hi⟩
  | cons i l ih =>
    obtain ⟨hnot, hrest⟩ := List.nodup_cons.mp hl
    obtain ⟨he, hfault⟩ := @evaluateOne_evaluates _ _ _ _ prog _ _ h r i
    obtain ⟨ht, hstays, hlater⟩ := ih hrest he.throttled
    refine ⟨ht, fun hf => hstays (he.stays hf), ?_⟩
    rintro ⟨j, hj, hat⟩
    rcases List.mem_cons.mp hj with rfl | hj
    · exact hstays (hfault hat)
    · refine hlater ⟨j, hj, ?_⟩
      unfold FaultAt
      rw [he.other j fun hji => hnot (hji ▸ hj)]
      exact hat

theorem evaluate_throttled {r : Readings T} {b : Board T κ υ} (h : Throttled b) :
    Throttled (evaluate prog r b) ∧
      ((∃ i, FaultAt r b i) → (evaluate prog r b).2.user.faulted = true) := by
  obtain ⟨ht, -, hfault⟩ := @evaluateAll _ _ _ _ prog _ _ (List.nodup_finRange n) r _ h
  exact ⟨ht, fun ⟨i, hi⟩ => hfault ⟨i, List.mem_finRange i, hi⟩⟩

/-! ## Runs -/

/-- Between the evaluations no runtime is installed over another. -/
def Keeps : EngineLabel T κ υ → Prop
  | .evaluate _ _ => True
  | .controller l => ¬ Reinstalls l.1 l.2

theorem initialize_throttled (e : Engine T) {w : CWorld κ υ} (h : Latched w) :
    Throttled ( e.initialize, w) :=
  ⟨h, fun _ hi => absurd rfl hi⟩

theorem around_faulted {w v : CWorld κ υ} (h : Around w v) : v.user.faulted = w.user.faulted := by
  unfold Around at h
  rw [h]

theorem step_throttled [Inhabited κ] {b b' : Board T κ υ} {l : EngineLabel T κ υ} (h : Throttled b)
    (hok : Keeps l) (hs : EngineStep prog b l b') : Throttled b' := by
  cases l with
  | evaluate found r =>
    obtain ⟨haround, rfl⟩ := hs
    refine (evaluate_throttled ⟨around_latched haround h.latched, fun i hi => ?_⟩).1
    exact (around_faulted haround).trans (h.requested i hi)
  | controller l =>
    obtain ⟨v, op⟩ := l
    obtain ⟨⟨haround, hw⟩, he⟩ := hs
    have hv := around_latched haround h.latched
    refine ⟨hw ▸ op_latched op hv, fun i hi => ?_⟩
    rw [he] at hi
    have hf : v.user.faulted = true := (around_faulted haround).trans (h.requested i hi)
    rw [hw]
    exact (op_stays hv hf hok).1

/-! ## Main result -/

/-- **Protection faults**: in every run of the board from `initialize`, an evaluation that
finds a rule in `FAULT` leaves the fault controller faulted. -/
theorem protection_fault [Inhabited κ] {w₀ w : CWorld κ υ} (h0 : Fresh w₀) {ls : List (Label κ υ)}
    (before : Run (Step prog.toProgram) (fun _ _ => True) w₀ ls w) (e : Engine T)
    {es : List (EngineLabel T κ υ)} {b : Board T κ υ}
    (run : Run (EngineStep prog) (fun _ l => Keeps l) ( e.initialize, w) es b)
    {found : CWorld κ υ} (haround : Around b.2 found) (r : Readings T)
    (hfault : ∃ i, FaultAt r (b.1, found) i) : isFaulted (evaluate prog r (b.1, found)).2 = true := by
  have hw : Latched w := run_latched (fresh_latched h0) before
  have hb : Throttled b :=
    run.invariant (initialize_throttled e hw) fun _ _ _ ht hok hs => step_throttled ht hok hs
  have hfound : Throttled (b.1, found) :=
    ⟨around_latched haround hb.latched, fun i hi => (around_faulted haround).trans (hb.requested i hi)⟩
  exact (evaluate_throttled hfound).2 hfault

/-- One protection of whole numbers, faulted above 10. -/
def oneProtection : Engine fun _ : Fin 1 => Int where
  protections _ := .new "overvoltage" [.above { faultThreshold := 10 }]

def oneReading : Readings fun _ : Fin 1 => Int where
  sample _ := 12
  ruleTick _ _ := 0#64
  requestTick _ := 0#64

/-- A program that does nothing, whose causes are names. -/
def namedProgram : EngineProgram String Unit where
  action _ := []
  guard _ := ([], fun _ => false)
  panicCause message := message
  protectionCause name _ _ := name

/-- The sample 12 faults the controller at the first evaluation. -/
theorem protection_fault_above :
    let w : CWorld String Unit :=
      { currentState := fun _ => 0, cyclicActions := fun _ _ => [], sched := Scheduler.Model.initial
        user := { latchedCause := default, program := () } }
    isFaulted (evaluate namedProgram oneReading ( oneProtection.initialize, w)).2 = true := by
  intro w
  have h0 : Fresh w := rfl
  have haround : Around w w := rfl
  exact protection_fault h0 (.nil w) oneProtection (.nil _) haround oneReading
    ⟨0, _, List.mem_singleton.mpr rfl, rfl⟩

end StLib.Protections.EngineFaults
