import StLib.Protections.EdgeReports

/-! # What an evaluation says of its rules

The loop of `Protection::evaluate` folds the evaluations of the rules into one. For every
list of them it finds the most severe state, the first rule in `FAULT`, and the edges in
the order of the rules, of which it keeps as many as its array holds
(`evaluate_summarises`). -/
namespace StLib.Protections.EvaluationFold

open StLib.Protections.Model
open StLib.Protections.EngineFaults StLib.Protections.EdgeReports

/-- What an evaluation says of the evaluations `xs` of the rules. -/
structure Summarises (xs : List RuleEvaluation) (e : ProtectionEvaluation) : Prop where
  atLeast : ∀ x ∈ xs, x.state.severity ≤ e.aggregatedState.severity
  reached : e.aggregatedState = .normal ∨ ∃ x ∈ xs, x.state = e.aggregatedState
  active : e.hasActiveFault = true ↔ ∃ x ∈ xs, x.state = .fault
  first : ∀ pre x post, xs = pre ++ x :: post → (∀ y ∈ pre, y.state ≠ .fault) →
    x.state = .fault → e.activeFaultEdge = x.edge ∧ e.activeFaultSnapshot = x.snapshot
  events : e.events = (xs.filter fun x => x.edge ≠ .none).take maxRulesPerProtection

/-- An active fault is in the aggregated state. -/
def Latched (e : ProtectionEvaluation) : Prop :=
  e.hasActiveFault = true → e.aggregatedState = .fault

theorem severity_le_fault (s : RuleState) : s.severity ≤ RuleState.fault.severity := by
  cases s <;> decide

theorem severity_le_warning {s : RuleState} (h : s ≠ .fault) :
    s.severity ≤ RuleState.warning.severity := by
  revert h
  cases s <;> decide

/-- One rule: the aggregated state is the more severe one. -/
theorem add_aggregated {e : ProtectionEvaluation} (h : Latched e) (x : RuleEvaluation) :
    Latched (e.add x) ∧ e.aggregatedState.severity ≤ (e.add x).aggregatedState.severity ∧
      x.state.severity ≤ (e.add x).aggregatedState.severity ∧
      ((e.add x).aggregatedState = e.aggregatedState ∨
        (e.add x).aggregatedState = x.state) := by
  have hkept : ∀ e : ProtectionEvaluation, Latched e →
      let e' := if x.state = .fault ∧ !e.hasActiveFault then
          { e with
            hasActiveFault := true
            activeFaultEdge := x.edge
            activeFaultSnapshot := x.snapshot
            aggregatedState := .fault }
        else if e.aggregatedState ≠ .fault ∧ x.state = .warning then
          { e with aggregatedState := .warning }
        else e
      Latched e' ∧ e.aggregatedState.severity ≤ e'.aggregatedState.severity ∧
        x.state.severity ≤ e'.aggregatedState.severity ∧
        (e'.aggregatedState = e.aggregatedState ∨ e'.aggregatedState = x.state) := by
    intro e he
    dsimp only
    split
    next hfirst =>
      exact ⟨fun _ => rfl, severity_le_fault _, severity_le_fault _, .inr hfirst.1.symm⟩
    next hnot =>
      split
      next hwarning =>
        have hquiet : ¬ e.hasActiveFault = true := fun ha => hwarning.1 (he ha)
        exact ⟨fun ha => absurd ha hquiet, severity_le_warning hwarning.1,
          by rw [hwarning.2], .inr hwarning.2.symm⟩
      next hquiet =>
        refine ⟨he, Nat.le_refl _, ?_, .inl rfl⟩
        -- a fault that is not the first one finds `FAULT`, as does a late warning
        cases hstate : x.state with
        | normal => exact Nat.zero_le _
        | warning =>
          have hfault : e.aggregatedState = .fault := by
            by_contra hne
            exact hquiet ⟨hne, hstate⟩
          rw [hfault]
          decide
        | fault =>
          have hactive : e.hasActiveFault = true := by
            by_contra hne
            exact hnot ⟨hstate, by simpa using hne⟩
          rw [he hactive]
  rw [ProtectionEvaluation.add]
  split
  · exact hkept _ h
  · exact hkept _ h

theorem foldl_aggregated (xs : List RuleEvaluation) {e : ProtectionEvaluation} (h : Latched e) :
    e.aggregatedState.severity ≤ (xs.foldl .add e).aggregatedState.severity ∧
      (∀ x ∈ xs, x.state.severity ≤ (xs.foldl .add e).aggregatedState.severity) ∧
      ((xs.foldl .add e).aggregatedState = e.aggregatedState ∨
        ∃ x ∈ xs, x.state = (xs.foldl .add e).aggregatedState) := by
  induction xs generalizing e with
  | nil => exact ⟨Nat.le_refl _, by simp, .inl rfl⟩
  | cons x xs ih =>
    obtain ⟨hlatched, hle, hx, hone⟩ := add_aggregated h x
    obtain ⟨hstart, hall, hreached⟩ := ih hlatched
    rw [List.foldl_cons]
    refine ⟨hle.trans hstart, List.forall_mem_cons.mpr ⟨hx.trans hstart, hall⟩, ?_⟩
    rcases hreached with hsame | ⟨y, hy, heq⟩
    · rcases hone with hold | hnew
      · exact .inl (hsame.trans hold)
      · exact .inr ⟨x, List.mem_cons_self, (hsame.trans hnew).symm⟩
    · exact .inr ⟨y, List.mem_cons_of_mem _ hy, heq⟩

/-- The fold summarises every list of evaluations. -/
theorem foldl_summarises (xs : List RuleEvaluation) : Summarises xs (xs.foldl .add {}) := by
  have hlatched : Latched {} := fun h => absurd h (by decide)
  obtain ⟨-, hall, hreached⟩ := foldl_aggregated xs hlatched
  have hactive := foldl_hasActiveFault xs {}
  have hfault := foldl_activeFault xs {}
  refine ⟨hall, hreached, hactive.trans (or_iff_right nofun), ?_, ?_⟩
  · rintro pre x post rfl hpre hx
    have hfind : (pre ++ x :: post).find? (fun y => y.state = .fault) = some x := by
      rw [List.find?_append, List.find?_eq_none.mpr (by simpa using hpre), Option.none_or,
        List.find?_cons_of_pos (by simpa using hx)]
    have hyes := hactive.mpr (.inr ⟨x, by simp, hx⟩)
    rw [if_neg (by decide), hfind, activeFault, if_pos hyes] at hfault
    exact Prod.mk.inj (Option.some.inj hfault)
  · exact foldl_events xs {} (Nat.zero_le _)

/-- **The evaluation of a protection** summarises those of its rules, however many they
are; the fold of its loop summarises every list of evaluations. -/
theorem evaluate_summarises {S : Type} [ProtectionSample S] (p : Protection S) (sample : S)
    (nowUs : Nat → BitVec 64) :
    (∀ xs : List RuleEvaluation, Summarises xs (xs.foldl .add {})) ∧
      Summarises (ruleEvaluations sample p.rules nowUs) (p.evaluate sample nowUs).1 := by
  have heval : (p.evaluate sample nowUs).1 =
      (ruleEvaluations sample p.rules nowUs).foldl .add {} :=
    evaluateRules_eq sample p.rules nowUs {}
  exact ⟨foldl_summarises, heval ▸ foldl_summarises _⟩

/-- **Seventeen edges**: the array of events holds sixteen. -/
theorem seventeenth_edge_unlisted :
    ¬ ∀ (p : Protection Int) (sample : Int) (nowUs : Nat → BitVec 64),
      (p.evaluate sample nowUs).1.events =
        (ruleEvaluations sample p.rules nowUs).filter fun x => x.edge ≠ .none := by
  intro h
  have hlen := congrArg List.length
    (h (.new "overvoltage" (List.replicate 17 (.above { faultThreshold := 10 }))) 12 fun _ => 0#64)
  exact absurd hlen (by decide +kernel)

end StLib.Protections.EvaluationFold
