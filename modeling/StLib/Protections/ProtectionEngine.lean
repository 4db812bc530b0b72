import StLib.Protections.FaultController
import StLib.Protections.Model

/-! # The protection engine

`ProtectionEngine` of a board: its protections, of any number and sample types, with the
fault controller. A call of `evaluate` is given what it reads: the samples and the
scheduler's clock, rule by rule and request by request. -/
namespace StLib.Protections.ProtectionEngine

open StLib.Protections.Model
open StLib.Protections.FaultController

/-- What `publish_protection_event` is given. -/
structure ProtectionEvent where
  name : String
  state : RuleState
  edge : RuleEdge
  snapshot : RuleSnapshot

variable {n : Nat} {κ υ : Type}

/-- The protections, and the events published. -/
structure Engine (T : Fin n → Type) where
  protections : ∀ i, Protection (T i)
  events : List ProtectionEvent := []

/-- What one evaluation reads. -/
structure Readings (T : Fin n → Type) where
  sample : ∀ i, T i
  ruleTick : Fin n → Nat → BitVec 64
  requestTick : Fin n → BitVec 64

variable {T : Fin n → Type}

def Engine.setProtection (e : Engine T) (i : Fin n) (p : Protection (T i)) : Engine T :=
  { e with protections := Function.update e.protections i p }

def Engine.reset (e : Engine T) [∀ i, ProtectionSample (T i)] : Engine T :=
  { e with protections := fun i => (e.protections i).clearRuntimeState }

/-- `initialize`; that of a protection does nothing. -/
def Engine.initialize (e : Engine T) [∀ i, ProtectionSample (T i)] : Engine T := e.reset

def publishEdgeEvents (name : String) (evaluation : ProtectionEvaluation) (e : Engine T) : Engine T :=
  { e with
    events := e.events ++ (evaluation.events.filter fun r => r.state ≠ .fault).map fun r =>
      { name, state := r.state, edge := r.edge, snapshot := r.snapshot } }

/-- The engine and the fault controller. -/
abbrev Board (T : Fin n → Type) (κ υ : Type) := Engine T × CWorld κ υ

/-- The program around, and `FaultCause::protection`. -/
structure EngineProgram (κ υ : Type) extends Program κ υ where
  protectionCause : String → RuleEdge → RuleSnapshot → κ

variable (prog : EngineProgram κ υ)

def requestFaultIfDue (tick : BitVec 64) (i : Fin n) (evaluation : ProtectionEvaluation)
    (b : Board T κ υ) : Board T κ υ :=
  let p := b.1.protections i
  if p.lastFaultPublishTick ≠ 0#64 ∧ tick - p.lastFaultPublishTick < notifyDelayInMicroseconds then b
  else
    (b.1.setProtection i { p with lastFaultPublishTick := tick },
      requestFault prog.toProgram
        (prog.protectionCause p.name evaluation.activeFaultEdge evaluation.activeFaultSnapshot) b.2)

variable [∀ i, ProtectionSample (T i)]

def evaluateOne (r : Readings T) (b : Board T κ υ) (i : Fin n) : Board T κ υ :=
  let (evaluation, p) := (b.1.protections i).evaluate (r.sample i) (r.ruleTick i)
  let b := (publishEdgeEvents p.name evaluation (b.1.setProtection i p), b.2)
  if evaluation.hasActiveFault then requestFaultIfDue prog (r.requestTick i) i evaluation b else b

def evaluate (r : Readings T) (b : Board T κ υ) : Board T κ υ :=
  (List.finRange n).foldl (evaluateOne prog r) b

/-! ## Runs -/

/-- A call, with the world that it finds. -/
inductive EngineLabel (T : Fin n → Type) (κ υ : Type)
  | evaluate (found : CWorld κ υ) (readings : Readings T)
  | controller (label : Label κ υ)

def EngineStep [Inhabited κ] (b : Board T κ υ) : EngineLabel T κ υ → Board T κ υ → Prop
  | .evaluate found r, b' => Around b.2 found ∧ b' = evaluate prog r (b.1, found)
  | .controller l, b' => Step prog.toProgram b.2 l b'.2 ∧ b'.1 = b.1

end StLib.Protections.ProtectionEngine
