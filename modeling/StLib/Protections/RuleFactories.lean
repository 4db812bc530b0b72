import Mathlib
import StLib.Protections.Model

/-! # The rule factories

The factories of `Rules.hpp` over a sample type in linear order. A message is dropped by
`validate_with_consteval`, so a configuration that is refused gives the error alone. Of a
window in seconds the code reads whether it is positive and what it is rounded to. What the
factories accept is `Valid` (`Accepted.valid`). -/
namespace StLib.Protections.RuleFactories

open StLib.Protections.Model

inductive RuleConfigError
  | invalidWarningThreshold
  | invalidRangeThresholds
  | invalidWindow
deriving DecidableEq

structure WindowSeconds where
  positive : Bool
  roundedUs : BitVec 64

def validateRuntime (predicate : Bool) (error : RuleConfigError) : Except RuleConfigError Unit :=
  if !predicate then .error error else .ok ()

theorem validateRuntime_bind {α : Type} {predicate : Bool} {error : RuleConfigError}
    {f : Unit → Except RuleConfigError α} {a : α} :
    validateRuntime predicate error >>= f = .ok a ↔ predicate = true ∧ f () = .ok a := by
  cases predicate
  · exact iff_of_false nofun nofun
  · exact (and_iff_right rfl).symm

variable {T : Type} [LinearOrder T]

def validateBelow (warningThreshold : Option T) (faultThreshold : T) :
    Except RuleConfigError (RuleDefinition T) :=
  match warningThreshold with
  | none => .ok (.below { faultThreshold })
  | some warning => do
    validateRuntime (warning ≥ faultThreshold) .invalidWarningThreshold
    .ok (.below { faultThreshold, warningThreshold })

def validateAbove (warningThreshold : Option T) (faultThreshold : T) :
    Except RuleConfigError (RuleDefinition T) :=
  match warningThreshold with
  | none => .ok (.above { faultThreshold })
  | some warning => do
    validateRuntime (warning ≤ faultThreshold) .invalidWarningThreshold
    .ok (.above { faultThreshold, warningThreshold })

def validateRange (lowFault highFault : T) (lowWarning highWarning : Option T) :
    Except RuleConfigError (RuleDefinition T) := do
  validateRuntime (lowFault ≤ highFault) .invalidRangeThresholds
  match lowWarning, highWarning with
  | none, none => .ok (.range { lowFault, highFault, lowWarning, highWarning })
  | some low, some high => do
    validateRuntime (lowFault ≤ low ∧ low ≤ high ∧ high ≤ highFault) .invalidRangeThresholds
    .ok (.range { lowFault, highFault, lowWarning, highWarning })
  -- `low_warning.has_value() != high_warning.has_value()`
  | _, _ => .error .invalidRangeThresholds

def validateTimeAccumulation (faultThreshold : T) (warningThreshold : Option T)
    (windowSeconds : WindowSeconds) : Except RuleConfigError (RuleDefinition T) := do
  validateRuntime windowSeconds.positive .invalidWindow
  match warningThreshold with
  | none => .ok (.timeAccumulation { faultThreshold, timeWindowUs := windowSeconds.roundedUs })
  | some warning => do
    validateRuntime (warning ≤ faultThreshold) .invalidWarningThreshold
    .ok (.timeAccumulation
      { faultThreshold, warningThreshold, timeWindowUs := windowSeconds.roundedUs })

/-! ## `Rules`, each with its overloads -/

def below (faultThreshold : T) (warningThreshold : Option T := none) :
    Except RuleConfigError (RuleDefinition T) :=
  validateBelow warningThreshold faultThreshold

def above (faultThreshold : T) (warningThreshold : Option T := none) :
    Except RuleConfigError (RuleDefinition T) :=
  validateAbove warningThreshold faultThreshold

def range (lowFault highFault : T) (warnings : Option (T × T) := none) :
    Except RuleConfigError (RuleDefinition T) :=
  validateRange lowFault highFault (warnings.map Prod.fst) (warnings.map Prod.snd)

def equals (value : T) : Except RuleConfigError (RuleDefinition T) :=
  .ok (.equals { expected := value })

def notEquals (value : T) : Except RuleConfigError (RuleDefinition T) :=
  .ok (.notEquals { expected := value })

def timeAccumulation (faultThreshold : T) (warningThreshold : Option T)
    (windowSeconds : WindowSeconds) : Except RuleConfigError (RuleDefinition T) :=
  validateTimeAccumulation faultThreshold warningThreshold windowSeconds

/-- The definitions that some factory returns. -/
inductive Accepted : RuleDefinition T → Prop
  | below {f w d} (h : below f w = .ok d) : Accepted d
  | above {f w d} (h : above f w = .ok d) : Accepted d
  | range {l u w d} (h : range l u w = .ok d) : Accepted d
  | equals {v d} (h : equals v = .ok d) : Accepted d
  | notEquals {v d} (h : notEquals v = .ok d) : Accepted d
  | timeAccumulation {f w s d} (h : timeAccumulation f w s = .ok d) : Accepted d

/-! ## What is accepted -/

/-- The warning thresholds of a range. -/
inductive RangeWarnings (c : RangeRuleConfig T) : Prop
  | none (low : c.lowWarning = .none) (high : c.highWarning = .none)
  | some (low high : T) (lowIs : c.lowWarning = some low) (highIs : c.highWarning = some high)
      (lowIn : c.lowFault ≤ low) (ordered : low ≤ high) (highIn : high ≤ c.highFault)

/-- The thresholds are in the order that the kind of the rule asks for. -/
def Valid : RuleDefinition T → Prop
  | .below c => ∀ w ∈ c.warningThreshold, c.faultThreshold ≤ w
  | .above c => ∀ w ∈ c.warningThreshold, w ≤ c.faultThreshold
  | .range c => c.lowFault ≤ c.highFault ∧ RangeWarnings c
  | .timeAccumulation c => ∀ w ∈ c.warningThreshold, w ≤ c.faultThreshold
  | .equals _ | .notEquals _ => True

theorem below_valid {f : T} {w : Option T} {d : RuleDefinition T} (h : below f w = .ok d) :
    Valid d := by
  unfold below validateBelow at h
  split at h
  next =>
    cases h
    exact nofun
  next warning =>
    obtain ⟨hle, hd⟩ := validateRuntime_bind.mp h
    cases hd
    rintro _ ⟨⟩
    exact of_decide_eq_true hle

theorem above_valid {f : T} {w : Option T} {d : RuleDefinition T} (h : above f w = .ok d) :
    Valid d := by
  unfold above validateAbove at h
  split at h
  next =>
    cases h
    exact nofun
  next warning =>
    obtain ⟨hle, hd⟩ := validateRuntime_bind.mp h
    cases hd
    rintro _ ⟨⟩
    exact of_decide_eq_true hle

theorem range_valid {l u : T} {w : Option (T × T)} {d : RuleDefinition T}
    (h : range l u w = .ok d) : Valid d := by
  unfold range validateRange at h
  obtain ⟨hle, h⟩ := validateRuntime_bind.mp h
  have hfault := of_decide_eq_true hle
  cases w with
  | none =>
    cases h
    exact ⟨hfault, .none rfl rfl⟩
  | some w =>
    obtain ⟨hin, hd⟩ := validateRuntime_bind.mp h
    obtain ⟨hlow, hordered, hhigh⟩ := of_decide_eq_true hin
    cases hd
    exact ⟨hfault, .some _ _ rfl rfl hlow hordered hhigh⟩

theorem timeAccumulation_valid {f : T} {w : Option T} {s : WindowSeconds}
    {d : RuleDefinition T} (h : timeAccumulation f w s = .ok d) : Valid d := by
  unfold timeAccumulation validateTimeAccumulation at h
  obtain ⟨-, h⟩ := validateRuntime_bind.mp h
  split at h
  next =>
    cases h
    exact nofun
  next warning =>
    obtain ⟨hle, hd⟩ := validateRuntime_bind.mp h
    cases hd
    rintro _ ⟨⟩
    exact of_decide_eq_true hle

theorem Accepted.valid {d : RuleDefinition T} (h : Accepted d) : Valid d := by
  cases h with
  | below h => exact below_valid h
  | above h => exact above_valid h
  | range h => exact range_valid h
  | equals h =>
    cases h
    trivial
  | notEquals h =>
    cases h
    trivial
  | timeAccumulation h => exact timeAccumulation_valid h

end StLib.Protections.RuleFactories
