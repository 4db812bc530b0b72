import StLib.Base.ActiveTime
import StLib.Protections.Model

/-! # Time accumulation

A time-accumulation rule is in `FAULT` when the sample has been above the threshold for
the window, or had been so counting from the evaluation before, which was not above it
(`fault_iff`). With the second case out of the way it measures continuous active time
(`time_accumulation_iff`). -/
namespace StLib.Protections.TimeAccumulation

open StLib.Base.ActiveTime StLib.Protections.Model

/-- An evaluation: the sample and the tick. -/
abbrev Evaluation (T : Type) := T × BitVec 64

variable {T : Type}

def tick (e : Evaluation T) : Nat := e.2.toNat

/-- The window in force, never zero. -/
def window (config : TimeAccumulationRuleConfig T) : Nat :=
  (TimeAccumulationRule.new config).configuredWindowUs.toNat

theorem window_pos (config : TimeAccumulationRuleConfig T) : 0 < window config := by
  unfold window TimeAccumulationRule.new
  dsimp only
  split
  next => decide
  next h =>
    rw [Nat.pos_iff_ne_zero]
    exact fun h0 => h (BitVec.eq_of_toNat_eq h0)

/-- The members count for the activity `active`. -/
def Counts (active : Evaluation T → Bool) (es : List (Evaluation T)) (r : TimeAccumulationRule T)
    (time : BitVec 64) : Prop :=
  accumulate active tick es =
    (if r.hasLastTick then some r.lastTickUs.toNat else none, time.toNat)

variable {es : List (Evaluation T)} {e : Evaluation T}

/-- One evaluation counts as `count` does: no sum wraps around. -/
theorem counts_step {active : Evaluation T → Bool} {r r' : TimeAccumulationRule T}
    {time : BitVec 64} (h : Counts active es r time) (ho : Ordered tick (es ++ [e]))
    (hlast : r'.hasLastTick = true) (htick : r'.lastTickUs = e.2) :
    Counts active (es ++ [e]) r' (if active e then
      time + (if r.hasLastTick then e.2 - r.lastTickUs else 0#64) else 0#64) := by
  obtain ⟨hle, hmem⟩ := accumulate_le (List.pairwise_append.mp ho).1
  unfold Counts at h ⊢
  rw [h] at hle hmem
  rw [accumulate_append, h, count, hlast, htick, if_pos rfl]
  refine Prod.ext rfl ?_
  cases hact : active e with
  | false => rfl
  | true =>
    simp only [if_true]
    cases hr : r.hasLastTick with
    | false => simp
    | true =>
      rw [hr] at hle hmem
      obtain ⟨e', he', ht⟩ := hmem _ rfl
      have hte : r.lastTickUs.toNat ≤ e.2.toNat := ht ▸
        (List.pairwise_append.mp ho).2.2 e' he' e (List.mem_singleton_self e)
      have hlt := e.2.isLt
      simp only [if_true, Option.getD_some] at hle ⊢
      rw [BitVec.toNat_add, BitVec.toNat_sub_of_le (BitVec.le_def.mpr hte), Nat.mod_eq_of_lt]
      · rfl
      · omega

theorem le_iff {active : Evaluation T → Bool} {r : TimeAccumulationRule T} {w time : BitVec 64}
    (h : Counts active es r time) (ho : Ordered tick es) (hw : 0 < w.toNat) :
    w ≤ time ↔ Sustained active tick w.toNat es ∨ Overcounts active tick w.toNat es := by
  rw [← le_accumulate_iff hw ho, show accumulate active tick es = _ from h]
  exact BitVec.le_def

theorem state_fault_iff (r : TimeAccumulationRule T) :
    r.state.1 = .fault ↔ r.configuredWindowUs ≤ r.faultActiveTimeUs := by
  unfold TimeAccumulationRule.state
  split
  next h => simp [h]
  next h =>
    simp only [h, iff_false]
    split <;> nofun

theorem state_normal_iff (r : TimeAccumulationRule T) :
    r.state.1 ≠ .normal ↔ r.state.1 = .fault ∨
      r.config.warningThreshold.isSome ∧ r.configuredWindowUs ≤ r.warningActiveTimeUs := by
  unfold TimeAccumulationRule.state
  split
  next => simp
  next =>
    split
    next h => simp [h]
    next h => simp [h]

variable [ProtectionSample T]

def faultActive (config : TimeAccumulationRuleConfig T) (e : Evaluation T) : Bool :=
  isAbove (ProtectionSample.absoluteValue e.1) config.faultThreshold

def warningActive (config : TimeAccumulationRuleConfig T) (e : Evaluation T) : Bool :=
  config.warningThreshold.any (isAbove (ProtectionSample.absoluteValue e.1))

/-- The rule of `config` after the evaluations `es`. -/
def rule (config : TimeAccumulationRuleConfig T) (es : List (Evaluation T)) :
    TimeAccumulationRule T :=
  es.foldl (fun rule e => (rule.evaluate e.1 e.2).2) (.new config)

/-- The state at the evaluation `e` that follows `es`. -/
def stateAt (config : TimeAccumulationRuleConfig T) (es : List (Evaluation T)) (e : Evaluation T) :
    RuleState :=
  ((rule config es).evaluate e.1 e.2).1.state

variable {config : TimeAccumulationRuleConfig T}

/-- What the members hold after the evaluations `es`. -/
structure Counted (config : TimeAccumulationRuleConfig T) (es : List (Evaluation T))
    (r : TimeAccumulationRule T) : Prop where
  configured : r.config = config
  windowed : r.configuredWindowUs.toNat = window config
  fault : Counts (faultActive config) es r r.faultActiveTimeUs
  warning : Counts (warningActive config) es r r.warningActiveTimeUs

theorem counted_count {r : TimeAccumulationRule T} (h : Counted config es r)
    (ho : Ordered tick (es ++ [e])) : Counted config (es ++ [e]) (r.count e.1 e.2) := by
  obtain ⟨rfl, hw, hf, hwarn⟩ := h
  exact ⟨rfl, hw, counts_step hf ho rfl rfl, counts_step hwarn ho rfl rfl⟩

theorem counted_rule (ho : Ordered tick es) : Counted config es (rule config es) := by
  induction es using List.reverseRecOn with
  | nil => exact ⟨rfl, rfl, rfl, rfl⟩
  | append_singleton es e ih =>
    have h := counted_count (ih (List.pairwise_append.mp ho).1) ho
    rw [rule, List.foldl_append]
    exact ⟨h.configured, h.windowed, h.fault, h.warning⟩

/-- A time that never counts stays below the window. -/
theorem warning_needs_threshold (hnone : config.warningThreshold = none) (w : Nat) :
    ¬ Sustained (warningActive config) tick w es ∧ ¬ Overcounts (warningActive config) tick w es := by
  have hact : ∀ e, warningActive config e = false := fun e => by
    unfold warningActive
    rw [hnone]
    rfl
  constructor
  · rintro ⟨pre, first, run, -, ha, -⟩
    exact absurd ((hact first).symm.trans (ha first List.mem_cons_self)) nofun
  · rintro ⟨pre, before, first, run, -, -, ha, -⟩
    exact absurd ((hact first).symm.trans (ha first List.mem_cons_self)) nofun

/-- **The state** of the rule at an evaluation. -/
theorem stateAt_iff (ho : Ordered tick (es ++ [e])) :
    (stateAt config es e = .fault ↔
      Sustained (faultActive config) tick (window config) (es ++ [e]) ∨
        Overcounts (faultActive config) tick (window config) (es ++ [e])) ∧
    (stateAt config es e ≠ .normal ↔ stateAt config es e = .fault ∨
      Sustained (warningActive config) tick (window config) (es ++ [e]) ∨
        Overcounts (warningActive config) tick (window config) (es ++ [e])) := by
  have h : Counted config (es ++ [e]) ((rule config es).count e.1 e.2) :=
    counted_count (counted_rule (List.pairwise_append.mp ho).1) ho
  have hstate : stateAt config es e = ((rule config es).count e.1 e.2).state.1 := rfl
  generalize (rule config es).count e.1 e.2 = r at h hstate
  have hw : 0 < r.configuredWindowUs.toNat := by
    rw [h.windowed]
    exact window_pos config
  rw [hstate]
  refine ⟨?_, ?_⟩
  · rw [state_fault_iff, le_iff h.fault ho hw, h.windowed]
  · rw [state_normal_iff, le_iff h.warning ho hw, h.windowed, h.configured]
    cases hc : config.warningThreshold with
    | none =>
      obtain ⟨hs, hover⟩ := @warning_needs_threshold T (es ++ [e]) _ config hc (window config)
      simp [hs, hover]
    | some t => simp

/-! ## Main result -/

/-- **Continuous active time**: a rule is in `FAULT`, and in `WARNING` or worse, when
its sample has been above the threshold for the window, unless the time since the last
evaluation not above it completes the window. -/
theorem time_accumulation_iff (config : TimeAccumulationRuleConfig T)
    (es : List (Evaluation T)) (e : Evaluation T) (ho : Ordered tick (es ++ [e])) :
    ((stateAt config es e = .fault ↔
        Sustained (faultActive config) tick (window config) (es ++ [e])) ∧
      (stateAt config es e ≠ .normal ↔
        Sustained (warningActive config) tick (window config) (es ++ [e]) ∨
          stateAt config es e = .fault)) ↔
    ¬ Overcounts (faultActive config) tick (window config) (es ++ [e]) ∧
      (Overcounts (warningActive config) tick (window config) (es ++ [e]) →
        Sustained (faultActive config) tick (window config) (es ++ [e])) := by
  obtain ⟨hfault, hwarning⟩ := @stateAt_iff _ _ _ _ config ho
  have hf : Overcounts (faultActive config) tick (window config) (es ++ [e]) →
      ¬ Sustained (faultActive config) tick (window config) (es ++ [e]) :=
    not_sustained_of_overcounts ho
  have hw : Overcounts (warningActive config) tick (window config) (es ++ [e]) →
      ¬ Sustained (warningActive config) tick (window config) (es ++ [e]) :=
    not_sustained_of_overcounts ho
  rw [hwarning, hfault]
  constructor
  · rintro ⟨hsame, hworse⟩
    have hno := fun ho => hf ho (hsame.mp (.inr ho))
    refine ⟨hno, fun ho => ?_⟩
    rcases hworse.mp (.inr (.inr ho)) with h | h | h
    · exact absurd h (hw ho)
    · exact h
    · exact absurd h hno
  · rintro ⟨hno, hover⟩
    refine ⟨or_iff_left hno, ?_, ?_⟩
    · rintro (h | h | h)
      · exact .inr h
      · exact .inl h
      · exact .inr (.inl (hover h))
    · rintro (h | h)
      · exact .inr (.inl h)
      · exact .inl h

/-- Whole numbers as samples. -/
instance : ProtectionSample Int where
  lt a b := decide (a < b)
  eq a b := decide (a = b)
  absoluteValue a := if a < 0 then -a else a
  sampleEncoding := .signed
  toNumericValue a := .signed (BitVec.ofInt 64 a)

/-- Above 10 for a millisecond. -/
def millisecond : TimeAccumulationRuleConfig Int where
  faultThreshold := 10
  timeWindowUs := 1000#64

/-- Two evaluations above the threshold, a millisecond apart. -/
theorem time_accumulation_millisecond :
    stateAt millisecond [(12, 0#64)] (12, 1000#64) = .fault := by
  have ho : Ordered tick [((12, 0#64) : Evaluation Int), (12, 1000#64)] := by
    simp [Ordered, tick]
  have hall : ∀ e ∈ [((12, 0#64) : Evaluation Int), (12, 1000#64)],
      faultActive millisecond e = true := by decide
  refine ((time_accumulation_iff millisecond [(12, 0#64)] (12, 1000#64) ho).mpr ⟨?_, ?_⟩).1.mpr
    ⟨[], (12, 0#64), [(12, 1000#64)], rfl, hall, by decide⟩
  · rintro ⟨pre, before, first, run, he, hb, -⟩
    have hmem : before ∈ [((12, 0#64) : Evaluation Int)] ++ [(12, 1000#64)] := by
      rw [he]
      simp
    exact absurd (hb.symm.trans (hall before hmem)) nofun
  · exact fun h => absurd h (warning_needs_threshold rfl _).2

/-- **The first evaluation above the threshold**, a millisecond after one that was not,
is already in `FAULT`. -/
theorem time_accumulation_overcounts :
    ¬ ∀ (config : TimeAccumulationRuleConfig Int) (es : List (Evaluation Int))
      (e : Evaluation Int), Ordered tick (es ++ [e]) →
      (stateAt config es e = .fault ↔
        Sustained (faultActive config) tick (window config) (es ++ [e])) := by
  intro h
  have ho : Ordered tick ([((0, 0#64) : Evaluation Int)] ++ [(12, 1000#64)]) := by
    simp [Ordered, tick]
  have hfault : stateAt millisecond [(0, 0#64)] (12, 1000#64) = .fault := by decide
  refine not_sustained_of_overcounts ho ?_ ((h millisecond _ _ ho).mp hfault)
  exact ⟨[], (0, 0#64), (12, 1000#64), [], rfl, by decide, by decide, by decide, by decide⟩

end StLib.Protections.TimeAccumulation
