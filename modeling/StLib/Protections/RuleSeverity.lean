import Mathlib.Algebra.Order.Ring.Int
import StLib.Protections.RuleFactories
import StLib.Protections.TimeAccumulation

/-! # Samples and severity

In every configuration the factories accept, a sample further out is at least as severe,
and the fault region is inside the warning region. So the active time of a warning
threshold is never below that of the fault threshold, at the ticks that
`Scheduler::get_global_tick` returns (`rules_monotone`). -/
namespace StLib.Protections.RuleSeverity

open StLib.Base.ActiveTime
open StLib.Protections.Model StLib.Protections.RuleFactories StLib.Protections.TimeAccumulation

/-- A sample type whose comparison is its order. -/
class OrderedSample (T : Type) [LinearOrder T] extends ProtectionSample T where
  lt_iff : ∀ a b : T, lt a b = true ↔ a < b

instance : OrderedSample Int where
  toProtectionSample := inferInstance
  lt_iff _ _ := decide_eq_true_iff

/-! ## Regions -/

section
variable {T : Type} [ProtectionSample T]

/-- The samples whose comparison with the fault thresholds succeeds. -/
def faultRegion : RuleDefinition T → T → Bool
  | .below c, x => isBelow x c.faultThreshold
  | .above c, x => isAbove x c.faultThreshold
  | .range c, x => isBelow x c.lowFault || isAbove x c.highFault
  | .equals c, x => isEqualTo x c.expected
  | .notEquals c, x => isNotEqualTo x c.expected
  | .timeAccumulation c, x => isAbove (ProtectionSample.absoluteValue x) c.faultThreshold

/-- The same for the warning thresholds, which may be missing. -/
def warningRegion : RuleDefinition T → T → Bool
  | .below c, x => c.warningThreshold.any (isBelow x)
  | .above c, x => c.warningThreshold.any (isAbove x)
  | .range c, x =>
    match c.lowWarning, c.highWarning with
    | some low, some high => isBelow x low || isAbove x high
    | _, _ => false
  | .equals _, _ | .notEquals _, _ => false
  | .timeAccumulation c, x =>
    c.warningThreshold.any (isAbove (ProtectionSample.absoluteValue x))

def hasWarning : RuleDefinition T → Bool
  | .below c => c.warningThreshold.isSome
  | .above c => c.warningThreshold.isSome
  | .range c => c.lowWarning.isSome && c.highWarning.isSome
  | .equals _ | .notEquals _ => false
  | .timeAccumulation c => c.warningThreshold.isSome

/-- The state of a sample in the regions. -/
def graded (inFault inWarning : Bool) : RuleState :=
  if inFault then .fault else if inWarning then .warning else .normal

theorem graded_mono {f w f' w' : Bool} (hf : f = true → f' = true) (hw : w = true → w' = true) :
    (graded f w).severity ≤ (graded f' w').severity := by
  revert f w f' w'
  decide

theorem range_graded (c : RangeRuleConfig T) (x : T) :
    c.compute x = graded (faultRegion (.range c) x) (warningRegion (.range c) x) := by
  obtain ⟨lowFault, highFault, lowWarning, highWarning⟩ := c
  cases lowWarning <;> cases highWarning <;>
    simp [RangeRuleConfig.compute, graded, faultRegion, warningRegion]

end

/-! ## Monotonicity -/

variable {T : Type} [LinearOrder T] [OrderedSample T]

theorem isBelow_iff {x t : T} : isBelow x t = true ↔ x < t := OrderedSample.lt_iff x t

theorem isAbove_iff {x t : T} : isAbove x t = true ↔ t < x := OrderedSample.lt_iff t x

theorem any_isBelow_mono {x y : T} (h : x ≤ y) (w : Option T) :
    w.any (isBelow y) = true → w.any (isBelow x) = true := by
  cases w with
  | none => exact id
  | some w => exact fun hy => isBelow_iff.mpr (h.trans_lt (isBelow_iff.mp hy))

theorem any_isAbove_mono {x y : T} (h : x ≤ y) (w : Option T) :
    w.any (isAbove x) = true → w.any (isAbove y) = true := by
  cases w with
  | none => exact id
  | some w => exact fun hx => isAbove_iff.mpr ((isAbove_iff.mp hx).trans_le h)

theorem below_mono (c : BelowRuleConfig T) {x y : T} (h : x ≤ y) :
    (c.compute y).severity ≤ (c.compute x).severity :=
  graded_mono (fun hy => isBelow_iff.mpr (h.trans_lt (isBelow_iff.mp hy)))
    (any_isBelow_mono h c.warningThreshold)

theorem above_mono (c : AboveRuleConfig T) {x y : T} (h : x ≤ y) :
    (c.compute x).severity ≤ (c.compute y).severity :=
  graded_mono (fun hx => isAbove_iff.mpr ((isAbove_iff.mp hx).trans_le h))
    (any_isAbove_mono h c.warningThreshold)

/-- The warning thresholds of a range, or its fault thresholds when it has none. -/
def warningBand (c : RangeRuleConfig T) : T × T :=
  (c.lowWarning.getD c.lowFault, c.highWarning.getD c.highFault)

theorem range_mono_low {c : RangeRuleConfig T} (hc : RangeWarnings c) {x y : T} (h : x ≤ y)
    (hy : y ≤ (warningBand c).2) : (c.compute y).severity ≤ (c.compute x).severity := by
  have hlow : ∀ {t}, isBelow y t = true → isBelow x t = true :=
    fun hlt => isBelow_iff.mpr (h.trans_lt (isBelow_iff.mp hlt))
  have hnot : ∀ {t}, y ≤ t → ¬ isAbove y t = true := fun hle ha => (isAbove_iff.mp ha).not_ge hle
  rw [range_graded, range_graded]
  cases hc with
  | none low high =>
    rw [warningBand, high] at hy
    refine graded_mono (fun hf => ?_) (fun hw => ?_)
    · rcases Bool.or_eq_true_iff.mp hf with hf | hf
      · exact Bool.or_eq_true_iff.mpr (.inl (hlow hf))
      · exact absurd hf (hnot hy)
    · rw [warningRegion, low] at hw
      exact absurd hw Bool.false_ne_true
  | some low high lowIs highIs lowIn ordered highIn =>
    rw [warningBand, highIs] at hy
    refine graded_mono (fun hf => ?_) (fun hw => ?_)
    · rcases Bool.or_eq_true_iff.mp hf with hf | hf
      · exact Bool.or_eq_true_iff.mpr (.inl (hlow hf))
      · exact absurd hf (hnot (hy.trans highIn))
    · rw [warningRegion, lowIs, highIs] at hw ⊢
      rcases Bool.or_eq_true_iff.mp hw with hw | hw
      · exact Bool.or_eq_true_iff.mpr (.inl (hlow hw))
      · exact absurd hw (hnot hy)

theorem range_mono_high {c : RangeRuleConfig T} (hc : RangeWarnings c) {x y : T} (h : x ≤ y)
    (hx : (warningBand c).1 ≤ x) : (c.compute x).severity ≤ (c.compute y).severity := by
  have hhigh : ∀ {t}, isAbove x t = true → isAbove y t = true :=
    fun hlt => isAbove_iff.mpr ((isAbove_iff.mp hlt).trans_le h)
  have hnot : ∀ {t}, t ≤ x → ¬ isBelow x t = true := fun hle ha => (isBelow_iff.mp ha).not_ge hle
  rw [range_graded, range_graded]
  cases hc with
  | none low high =>
    rw [warningBand, low] at hx
    refine graded_mono (fun hf => ?_) (fun hw => ?_)
    · rcases Bool.or_eq_true_iff.mp hf with hf | hf
      · exact absurd hf (hnot hx)
      · exact Bool.or_eq_true_iff.mpr (.inr (hhigh hf))
    · rw [warningRegion, low] at hw
      exact absurd hw Bool.false_ne_true
  | some low high lowIs highIs lowIn ordered highIn =>
    rw [warningBand, lowIs] at hx
    refine graded_mono (fun hf => ?_) (fun hw => ?_)
    · rcases Bool.or_eq_true_iff.mp hf with hf | hf
      · exact absurd hf (hnot (lowIn.trans hx))
      · exact Bool.or_eq_true_iff.mpr (.inr (hhigh hf))
    · rw [warningRegion, lowIs, highIs] at hw ⊢
      rcases Bool.or_eq_true_iff.mp hw with hw | hw
      · exact absurd hw (hnot hx)
      · exact Bool.or_eq_true_iff.mpr (.inr (hhigh hw))

/-! ## Fault inside warning -/

theorem any_isAbove_of_le {w : Option T} {t x : T} (hw : w.isSome = true) (h : ∀ a ∈ w, a ≤ t)
    (hx : isAbove x t = true) : w.any (isAbove x) = true := by
  obtain ⟨a, rfl⟩ := Option.isSome_iff_exists.mp hw
  exact isAbove_iff.mpr ((h a rfl).trans_lt (isAbove_iff.mp hx))

theorem fault_in_warning {d : RuleDefinition T} (h : Valid d) (hw : hasWarning d = true) {x : T}
    (hx : faultRegion d x = true) : warningRegion d x = true := by
  cases d with
  | below c =>
    obtain ⟨w, hc⟩ := Option.isSome_iff_exists.mp hw
    rw [warningRegion, hc]
    exact isBelow_iff.mpr ((isBelow_iff.mp hx).trans_le (h w hc))
  | above c => exact any_isAbove_of_le hw h hx
  | range c =>
    obtain ⟨-, hc⟩ := h
    cases hc with
    | none low high =>
      rw [hasWarning, low] at hw
      exact absurd hw Bool.false_ne_true
    | some low high lowIs highIs lowIn ordered highIn =>
      rw [warningRegion, lowIs, highIs]
      rcases Bool.or_eq_true_iff.mp hx with hx | hx
      · exact Bool.or_eq_true_iff.mpr (.inl (isBelow_iff.mpr ((isBelow_iff.mp hx).trans_le lowIn)))
      · exact Bool.or_eq_true_iff.mpr (.inr (isAbove_iff.mpr (highIn.trans_lt (isAbove_iff.mp hx))))
  | equals c => exact absurd hw Bool.false_ne_true
  | notEquals c => exact absurd hw Bool.false_ne_true
  | timeAccumulation c => exact any_isAbove_of_le hw h hx

/-! ## Time accumulation -/

/-- `Scheduler::get_global_tick`, with the last tick it returned and the sum of the tick and
the counter; the static `last_tick` is the tick returned. -/
def getGlobalTick (lastTick tick : BitVec 64) : BitVec 64 :=
  if tick < lastTick then lastTick else tick

theorem getGlobalTick_ge (lastTick tick : BitVec 64) :
    lastTick.toNat ≤ (getGlobalTick lastTick tick).toNat := by
  unfold getGlobalTick
  split
  next => exact Nat.le_refl _
  next h => exact BitVec.le_def.mp (BitVec.not_lt.mp h)

/-- The evaluations of a rule among the calls of `get_global_tick`, of which some are made
with its sample and the others by the rest of the program. -/
def evaluationsOf : BitVec 64 → List (Option T × BitVec 64) → List (Evaluation T)
  | _, [] => []
  | lastTick, (none, tick) :: rest => evaluationsOf (getGlobalTick lastTick tick) rest
  | lastTick, (some sample, tick) :: rest =>
    let now := getGlobalTick lastTick tick
    (sample, now) :: evaluationsOf now rest

omit [LinearOrder T] [OrderedSample T] in
theorem evaluationsOf_ordered : ∀ (lastTick : BitVec 64) (calls : List (Option T × BitVec 64)),
    (∀ e ∈ evaluationsOf lastTick calls, lastTick.toNat ≤ tick e) ∧
      Ordered tick (evaluationsOf lastTick calls)
  | _, [] => ⟨nofun, .nil⟩
  | lastTick, (none, now) :: rest => by
    obtain ⟨hle, hord⟩ := evaluationsOf_ordered (getGlobalTick lastTick now) rest
    exact ⟨fun e he => (getGlobalTick_ge lastTick now).trans (hle e he), hord⟩
  | lastTick, (some sample, now) :: rest => by
    obtain ⟨hle, hord⟩ := evaluationsOf_ordered (getGlobalTick lastTick now) rest
    refine ⟨List.forall_mem_cons.mpr ⟨getGlobalTick_ge lastTick now, fun e he => ?_⟩, ?_⟩
    · exact (getGlobalTick_ge lastTick now).trans (hle e he)
    · exact List.pairwise_cons.mpr ⟨hle, hord⟩

/-- The state that the warning condition alone gives. -/
def warningAlone (r : TimeAccumulationRule T) : RuleState :=
  if r.config.warningThreshold.isSome ∧ r.configuredWindowUs ≤ r.warningActiveTimeUs then .warning
  else .normal

/-- The active time of the warning threshold is not below that of the fault threshold. -/
theorem faultTime_le_warningTime {c : TimeAccumulationRuleConfig T}
    (h : Valid (.timeAccumulation c)) (hw : c.warningThreshold.isSome = true)
    {es : List (Evaluation T)} (ho : Ordered tick es) :
    (rule c es).faultActiveTimeUs ≤ (rule c es).warningActiveTimeUs := by
  have hcounted : Counted c es (rule c es) := counted_rule ho
  have hmono : (accumulate (faultActive c) tick es).2 ≤ (accumulate (warningActive c) tick es).2 :=
    (accumulate_mono fun e _ => any_isAbove_of_le hw h).2
  rw [hcounted.fault, hcounted.warning] at hmono
  exact BitVec.le_def.mpr hmono

theorem fault_with_warning {c : TimeAccumulationRuleConfig T} (h : Valid (.timeAccumulation c))
    (hw : c.warningThreshold.isSome = true) {es : List (Evaluation T)} {e : Evaluation T}
    (ho : Ordered tick (es ++ [e])) (hfault : stateAt c es e = .fault) :
    warningAlone (rule c (es ++ [e])) = .warning := by
  have hle := faultTime_le_warningTime h hw ho
  have hrule : rule c (es ++ [e]) = ((rule c es).evaluate e.1 e.2).2 := by
    rw [rule, List.foldl_append]
    rfl
  have hwindow : (rule c (es ++ [e])).configuredWindowUs ≤
      (rule c (es ++ [e])).faultActiveTimeUs := by
    rw [hrule]
    exact (state_fault_iff _).mp hfault
  have hconfig : (rule c (es ++ [e])).config = c := (counted_rule ho).configured
  exact if_pos ⟨hconfig.symm ▸ hw, BitVec.le_trans hwindow hle⟩

/-! ## Main result -/

/-- The severity of the state of a rule for a sample. -/
def severityOf (m : RuleModel T) (x : T) (now : BitVec 64) : Nat :=
  (m.evaluate x now).1.state.severity

/-- **Monotone rules**: of every configuration that the factories accept, the state of a
rule is not less severe for a sample further below, above or outside the band; the fault
region is inside the warning region; and in every run the active time of a warning threshold
is at least that of the fault threshold. -/
theorem rules_monotone (T : Type) [LinearOrder T] [OrderedSample T] :
    (∀ r : TrackedRule (BelowRuleConfig T), Accepted (.below r.config) → ∀ x y now now', x ≤ y →
      severityOf (.below r) y now ≤ severityOf (.below r) x now') ∧
    (∀ r : TrackedRule (AboveRuleConfig T), Accepted (.above r.config) → ∀ x y now now', x ≤ y →
      severityOf (.above r) x now ≤ severityOf (.above r) y now') ∧
    (∀ r : TrackedRule (RangeRuleConfig T), Accepted (.range r.config) → ∀ x y now now', x ≤ y →
      (y ≤ (warningBand r.config).2 →
        severityOf (.range r) y now ≤ severityOf (.range r) x now') ∧
      ((warningBand r.config).1 ≤ x →
        severityOf (.range r) x now ≤ severityOf (.range r) y now')) ∧
    (∀ d : RuleDefinition T, Accepted d → hasWarning d = true → ∀ x,
      faultRegion d x = true → warningRegion d x = true) ∧
    (∀ c : TimeAccumulationRuleConfig T, Accepted (.timeAccumulation c) →
      c.warningThreshold.isSome = true → ∀ lastTick calls,
      ∀ es, es <+: evaluationsOf lastTick calls →
        (rule c es).faultActiveTimeUs ≤ (rule c es).warningActiveTimeUs ∧
        ∀ pre e, es = pre ++ [e] → stateAt c pre e = .fault →
          warningAlone (rule c es) = .warning) := by
  refine ⟨fun r _ x y _ _ hxy => below_mono r.config hxy,
    fun r _ x y _ _ hxy => above_mono r.config hxy, ?_, ?_, ?_⟩
  · intro r h x y _ _ hxy
    obtain ⟨-, hwarnings⟩ := h.valid
    exact ⟨range_mono_low hwarnings hxy, range_mono_high hwarnings hxy⟩
  · exact fun d h hw x => fault_in_warning h.valid hw
  · intro c h hw lastTick calls es hes
    have ho : Ordered tick es :=
      List.Pairwise.sublist hes.sublist (evaluationsOf_ordered lastTick calls).2
    refine ⟨faultTime_le_warningTime h.valid hw ho, ?_⟩
    rintro pre e rfl hfault
    exact fault_with_warning h.valid hw ho hfault

/-- **No warning threshold**: the time above the fault threshold counts alone. -/
theorem unwarned_fault : ¬ ∀ c : TimeAccumulationRuleConfig Int, Accepted (.timeAccumulation c) →
    ∀ lastTick calls, (rule c (evaluationsOf lastTick calls)).faultActiveTimeUs ≤
      (rule c (evaluationsOf lastTick calls)).warningActiveTimeUs := by
  intro h
  have haccepted : Accepted (.timeAccumulation millisecond) :=
    .timeAccumulation (f := 10) (w := none) (s := ⟨true, 1000#64⟩) rfl
  have hle := h millisecond haccepted 0#64 [(some 12, 0#64), (some 12, 1000#64)]
  exact absurd hle (by decide)

end StLib.Protections.RuleSeverity
