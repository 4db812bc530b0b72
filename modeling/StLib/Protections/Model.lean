import Mathlib.Tactic.Common

/-! # Rules and protections

`ProtectionTypes.hpp`, the rule configurations of `Rules.hpp` and `Protection.hpp`. A
sample type is any type with the comparisons the rules make; a `RuleModel` is the rule
its kind selects. Times in seconds are kept in the microseconds they are rounded to or
computed from. A reading of the scheduler's clock is an argument. -/
namespace StLib.Protections.Model

/-! ## Types -/

inductive RuleKind
  | below
  | above
  | range
  | equals
  | notEquals
  | timeAccumulation
deriving DecidableEq

inductive RuleState
  | normal
  | warning
  | fault
deriving DecidableEq

/-- The value of the enumerator. -/
def RuleState.severity : RuleState → Nat
  | .normal => 0
  | .warning => 1
  | .fault => 2

inductive RuleEdge
  | none
  | warningRaised
  | faultRaised
  | recovered
deriving DecidableEq

inductive SampleEncoding
  | bool
  | signed
  | unsigned
  | float32
  | float64
deriving DecidableEq

/-- `NumericValue`, with the member of the union that is set; a float is its bits. -/
inductive NumericValue
  | bool (value : Bool)
  | signed (value : BitVec 64)
  | unsigned (value : BitVec 64)
  | float32 (bits : BitVec 32)
  | float64 (bits : BitVec 64)
deriving DecidableEq

/-- A sample type, with what the rules and the snapshots do with its values. -/
class ProtectionSample (T : Type) where
  lt : T → T → Bool
  eq : T → T → Bool
  absoluteValue : T → T
  sampleEncoding : SampleEncoding
  toNumericValue : T → NumericValue

structure RuleSnapshot where
  kind : RuleKind := .below
  sampleEncoding : SampleEncoding := .signed
  observedValue : NumericValue := .unsigned 0#64
  thresholdA : NumericValue := .unsigned 0#64
  thresholdB : NumericValue := .unsigned 0#64
  hasThresholdB : Bool := false
  usesWarningThreshold : Bool := false
  timeWindowUs : BitVec 64 := 0#64
  activeTimeUs : BitVec 64 := 0#64
deriving DecidableEq

structure RuleEvaluation where
  state : RuleState := .normal
  edge : RuleEdge := .none
  snapshot : RuleSnapshot := {}
deriving DecidableEq

def maxRulesPerProtection : Nat := 16

def notifyDelayInMicroseconds : BitVec 64 := 2000000#64

/-! ## Rule configurations -/

section configurations
variable (T : Type)

structure BelowRuleConfig where
  faultThreshold : T
  warningThreshold : Option T := none

structure AboveRuleConfig where
  faultThreshold : T
  warningThreshold : Option T := none

structure RangeRuleConfig where
  lowFault : T
  highFault : T
  lowWarning : Option T := none
  highWarning : Option T := none

structure EqualsRuleConfig where
  expected : T

structure NotEqualsRuleConfig where
  expected : T

structure TimeAccumulationRuleConfig where
  faultThreshold : T
  warningThreshold : Option T := none
  timeWindowUs : BitVec 64

inductive RuleDefinition
  | below (config : BelowRuleConfig T)
  | above (config : AboveRuleConfig T)
  | range (config : RangeRuleConfig T)
  | equals (config : EqualsRuleConfig T)
  | notEquals (config : NotEqualsRuleConfig T)
  | timeAccumulation (config : TimeAccumulationRuleConfig T)

end configurations

variable {T : Type} [ProtectionSample T]

/-! ## Comparisons -/

def isBelow (sample threshold : T) : Bool := ProtectionSample.lt sample threshold

/-- `sample > threshold`. -/
def isAbove (sample threshold : T) : Bool := ProtectionSample.lt threshold sample

def isEqualTo (lhs rhs : T) : Bool := ProtectionSample.eq lhs rhs

def isNotEqualTo (lhs rhs : T) : Bool := !isEqualTo lhs rhs

/-! ## Edges and snapshots -/

/-- `RuleStateTracker`, which is its `last_state`. -/
structure RuleStateTracker where
  lastState : RuleState := .normal
deriving DecidableEq

def RuleStateTracker.advance (tracker : RuleStateTracker) (currentState : RuleState) :
    RuleEdge × RuleStateTracker :=
  let edge : RuleEdge :=
    if currentState = .fault ∧ tracker.lastState ≠ .fault then .faultRaised
    else if currentState = .warning ∧ tracker.lastState ≠ .warning then .warningRaised
    else if currentState = .normal ∧ tracker.lastState ≠ .normal then .recovered
    else .none
  (edge, { lastState := currentState })

def shouldUseWarningThreshold (currentState : RuleState) (edge : RuleEdge)
    (previousState : RuleState) (hasWarningThreshold : Bool) : Bool :=
  hasWarningThreshold &&
    (currentState = .warning || (edge = .recovered && previousState = .warning))

/-- What `RuleSnapshotBuilder` is given about the states. -/
structure Change where
  currentState : RuleState
  edge : RuleEdge
  previousState : RuleState

def singleThreshold (kind : RuleKind) (observed faultThreshold : T) (warningThreshold : Option T)
    (timeWindowUs activeTimeUs : BitVec 64) (c : Change) : RuleSnapshot :=
  let usesWarningThreshold :=
    shouldUseWarningThreshold c.currentState c.edge c.previousState warningThreshold.isSome
  { kind
    sampleEncoding := ProtectionSample.sampleEncoding T
    observedValue := ProtectionSample.toNumericValue observed
    timeWindowUs
    activeTimeUs
    usesWarningThreshold
    thresholdA := ProtectionSample.toNumericValue
      (if usesWarningThreshold then warningThreshold.getD faultThreshold else faultThreshold) }

def rangeSnapshot (observed : T) (config : RangeRuleConfig T) (c : Change) : RuleSnapshot :=
  let usesWarningThreshold := shouldUseWarningThreshold c.currentState c.edge c.previousState
    (config.lowWarning.isSome && config.highWarning.isSome)
  { kind := .range
    sampleEncoding := ProtectionSample.sampleEncoding T
    observedValue := ProtectionSample.toNumericValue observed
    hasThresholdB := true
    usesWarningThreshold
    thresholdA := ProtectionSample.toNumericValue
      (if usesWarningThreshold then config.lowWarning.getD config.lowFault else config.lowFault)
    thresholdB := ProtectionSample.toNumericValue
      (if usesWarningThreshold then config.highWarning.getD config.highFault
        else config.highFault) }

/-! ## Evaluators -/

def BelowRuleConfig.compute (config : BelowRuleConfig T) (sample : T) : RuleState :=
  if isBelow sample config.faultThreshold then .fault
  else if config.warningThreshold.any (isBelow sample) then .warning
  else .normal

def AboveRuleConfig.compute (config : AboveRuleConfig T) (sample : T) : RuleState :=
  if isAbove sample config.faultThreshold then .fault
  else if config.warningThreshold.any (isAbove sample) then .warning
  else .normal

def RangeRuleConfig.compute (config : RangeRuleConfig T) (sample : T) : RuleState :=
  if isBelow sample config.lowFault || isAbove sample config.highFault then .fault
  else
    match config.lowWarning, config.highWarning with
    | some lowWarning, some highWarning =>
      if isBelow sample lowWarning || isAbove sample highWarning then .warning else .normal
    | _, _ => .normal

def EqualsRuleConfig.compute (config : EqualsRuleConfig T) (sample : T) : RuleState :=
  if isEqualTo sample config.expected then .fault else .normal

def NotEqualsRuleConfig.compute (config : NotEqualsRuleConfig T) (sample : T) : RuleState :=
  if isNotEqualTo sample config.expected then .fault else .normal

/-! ## Rules -/

/-- A rule whose state is a function of the sample: its configuration and its tracker. -/
structure TrackedRule (C : Type) where
  config : C
  tracker : RuleStateTracker := {}

/-- The evaluation of a rule in the state computed. -/
def RuleStateTracker.evaluate (tracker : RuleStateTracker) (state : RuleState)
    (snapshot : Change → RuleSnapshot) : RuleEvaluation × RuleStateTracker :=
  let previousState := tracker.lastState
  let (edge, tracker) := tracker.advance state
  ({ state, edge, snapshot := snapshot { currentState := state, edge, previousState } }, tracker)

def TrackedRule.evaluate {C : Type} (rule : TrackedRule C) (state : RuleState)
    (snapshot : Change → RuleSnapshot) : RuleEvaluation × TrackedRule C :=
  let (evaluation, tracker) := rule.tracker.evaluate state snapshot
  (evaluation, { rule with tracker })

/-- `TimeAccumulationRule`, less the members that a call writes before it reads them. -/
structure TimeAccumulationRule (T : Type) where
  config : TimeAccumulationRuleConfig T
  tracker : RuleStateTracker := {}
  configuredWindowUs : BitVec 64 := 1#64
  hasLastTick : Bool := false
  lastTickUs : BitVec 64 := 0#64
  warningActiveTimeUs : BitVec 64 := 0#64
  faultActiveTimeUs : BitVec 64 := 0#64

/-- The constructor. -/
def TimeAccumulationRule.new (config : TimeAccumulationRuleConfig T) : TimeAccumulationRule T :=
  { config
    configuredWindowUs := if config.timeWindowUs = 0#64 then 1#64 else config.timeWindowUs }

/-- The first half of `TimeAccumulationEvaluator::compute`: the members. -/
def TimeAccumulationRule.count (rule : TimeAccumulationRule T) (sample : T) (nowUs : BitVec 64) :
    TimeAccumulationRule T :=
  let elapsedUs := if rule.hasLastTick then nowUs - rule.lastTickUs else 0#64
  let activeMagnitude := ProtectionSample.absoluteValue sample
  { rule with
    hasLastTick := true
    lastTickUs := nowUs
    faultActiveTimeUs :=
      if isAbove activeMagnitude rule.config.faultThreshold then rule.faultActiveTimeUs + elapsedUs
      else 0#64
    warningActiveTimeUs :=
      if rule.config.warningThreshold.any (isAbove activeMagnitude) then
        rule.warningActiveTimeUs + elapsedUs
      else 0#64 }

/-- Its second half: the state, and the active time that goes into the snapshot. -/
def TimeAccumulationRule.state (rule : TimeAccumulationRule T) : RuleState × BitVec 64 :=
  if rule.configuredWindowUs ≤ rule.faultActiveTimeUs then (.fault, rule.faultActiveTimeUs)
  else if rule.config.warningThreshold.isSome ∧
      rule.configuredWindowUs ≤ rule.warningActiveTimeUs then
    (.warning, rule.warningActiveTimeUs)
  else
    (.normal,
      if rule.config.warningThreshold.isSome then rule.warningActiveTimeUs
      else rule.faultActiveTimeUs)

def TimeAccumulationRule.evaluate (rule : TimeAccumulationRule T) (sample : T) (nowUs : BitVec 64) :
    RuleEvaluation × TimeAccumulationRule T :=
  let rule := rule.count sample nowUs
  let (state, activeTimeUs) := rule.state
  let (evaluation, tracker) := rule.tracker.evaluate state
    (singleThreshold .timeAccumulation (ProtectionSample.absoluteValue sample)
      rule.config.faultThreshold rule.config.warningThreshold rule.config.timeWindowUs activeTimeUs)
  (evaluation, { rule with tracker })

inductive RuleModel (T : Type)
  | below (rule : TrackedRule (BelowRuleConfig T))
  | above (rule : TrackedRule (AboveRuleConfig T))
  | range (rule : TrackedRule (RangeRuleConfig T))
  | equals (rule : TrackedRule (EqualsRuleConfig T))
  | notEquals (rule : TrackedRule (NotEqualsRuleConfig T))
  | timeAccumulation (rule : TimeAccumulationRule T)

def RuleModel.evaluate (sample : T) (nowUs : BitVec 64) :
    RuleModel T → RuleEvaluation × RuleModel T
  | .below rule =>
    (rule.evaluate (rule.config.compute sample) (singleThreshold .below sample
      rule.config.faultThreshold rule.config.warningThreshold 0#64 0#64)).map id .below
  | .above rule =>
    (rule.evaluate (rule.config.compute sample) (singleThreshold .above sample
      rule.config.faultThreshold rule.config.warningThreshold 0#64 0#64)).map id .above
  | .range rule =>
    (rule.evaluate (rule.config.compute sample) (rangeSnapshot sample rule.config)).map id .range
  | .equals rule =>
    (rule.evaluate (rule.config.compute sample) (singleThreshold .equals sample
      rule.config.expected none 0#64 0#64)).map id .equals
  | .notEquals rule =>
    (rule.evaluate (rule.config.compute sample) (singleThreshold .notEquals sample
      rule.config.expected none 0#64 0#64)).map id .notEquals
  | .timeAccumulation rule => (rule.evaluate sample nowUs).map id .timeAccumulation

def makeRuleModel : RuleDefinition T → RuleModel T
  | .below config => .below { config }
  | .above config => .above { config }
  | .range config => .range { config }
  | .equals config => .equals { config }
  | .notEquals config => .notEquals { config }
  | .timeAccumulation config => .timeAccumulation (.new config)

/-! ## Protections -/

/-- `ProtectionEvaluation`; `events` are its first `event_count` events. -/
structure ProtectionEvaluation where
  aggregatedState : RuleState := .normal
  hasActiveFault : Bool := false
  activeFaultEdge : RuleEdge := .none
  activeFaultSnapshot : RuleSnapshot := {}
  events : List RuleEvaluation := []

/-- `Protection`; the source is read by the caller. -/
structure Protection (T : Type) where
  name : String
  definitions : List (RuleDefinition T)
  rules : List (RuleModel T)
  lastFaultPublishTick : BitVec 64 := 0#64

/-- The constructor. -/
def Protection.new (name : String) (definitions : List (RuleDefinition T)) : Protection T :=
  { name, definitions, rules := definitions.map makeRuleModel }

/-- The body of the loop of `evaluate`, once the rule is evaluated. -/
def ProtectionEvaluation.add (evaluation : ProtectionEvaluation) (rule : RuleEvaluation) :
    ProtectionEvaluation :=
  let evaluation :=
    if rule.edge ≠ .none ∧ evaluation.events.length < maxRulesPerProtection then
      { evaluation with events := evaluation.events ++ [rule] }
    else evaluation
  if rule.state = .fault ∧ !evaluation.hasActiveFault then
    { evaluation with
      hasActiveFault := true
      activeFaultEdge := rule.edge
      activeFaultSnapshot := rule.snapshot
      aggregatedState := .fault }
  else if evaluation.aggregatedState ≠ .fault ∧ rule.state = .warning then
    { evaluation with aggregatedState := .warning }
  else evaluation

/-- The loop of `evaluate`; `nowUs` are the readings of the clock, rule by rule. -/
def evaluateRules (sample : T) : List (RuleModel T) → (Nat → BitVec 64) → ProtectionEvaluation →
    ProtectionEvaluation × List (RuleModel T)
  | [], _, evaluation => (evaluation, [])
  | rule :: rest, nowUs, evaluation =>
    let (ruleEvaluation, rule) := rule.evaluate sample (nowUs 0)
    let (evaluation, rest) :=
      evaluateRules sample rest (fun i => nowUs (i + 1)) (evaluation.add ruleEvaluation)
    (evaluation, rule :: rest)

def Protection.evaluate (p : Protection T) (sample : T) (nowUs : Nat → BitVec 64) :
    ProtectionEvaluation × Protection T :=
  let (evaluation, rules) := evaluateRules sample p.rules nowUs {}
  (evaluation, { p with rules })

def Protection.clearRuntimeState (p : Protection T) : Protection T :=
  { p with rules := p.definitions.map makeRuleModel, lastFaultPublishTick := 0#64 }

end StLib.Protections.Model
