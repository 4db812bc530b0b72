import StLib.Base.FinLiterals
import StLib.Control.MovingAverage

/-! # PID controllers

`PID.hpp`, with `Integrator`, `SimpleDerivator` and `MovingAverage`. Numbers are rational where
the code has `double`. -/
namespace StLib.Control.Pid

inductive IntegratorType
  | forwardEuler
  | backwardEuler
  | trapezoidal
deriving DecidableEq

/-- `Integrator`, of every type. Its index stays in the buffer of two. -/
structure Integrator where
  period : ℚ
  ki : ℚ
  inputValue : ℚ := 0
  outputValue : ℚ := 0
  buffer : Fin 2 → ℚ := fun _ => 0
  index : Fin 2 := 0
  integral : ℚ := 0
  firstExecution : Bool := true

structure SimpleDerivator where
  period : ℚ
  inputValue : ℚ := 0
  outputValue : ℚ := 0
  buffer : Fin 2 → ℚ := fun _ => 0
  index : Fin 2 := 0

/-- What an execution integrates, of the previous sample and of this one. -/
def IntegratorType.sample (previous this : ℚ) : IntegratorType → ℚ
  | forwardEuler => previous
  | backwardEuler => this
  | trapezoidal => (this + previous) / 2

namespace Integrator

def input (x : ℚ) (i : Integrator) : Integrator := { i with inputValue := x }

def execute (method : IntegratorType) (i : Integrator) : Integrator :=
  let i := { i with buffer := Function.update i.buffer i.index i.inputValue }
  if i.firstExecution then { i with firstExecution := false, index := i.index + 1, outputValue := 0 }
  else
    let integral := i.integral +
      i.ki * i.period * method.sample (i.buffer (i.index - 1)) (i.buffer i.index)
    { i with integral, outputValue := integral, index := i.index + 1 }

/-- The trapezoidal one only resets its output. -/
def reset (method : IntegratorType) (i : Integrator) : Integrator :=
  { i with
    outputValue := if method = .trapezoidal then 0 else i.outputValue
    firstExecution := true
    integral := 0
    index := 0
    buffer := fun _ => 0 }

end Integrator

namespace SimpleDerivator

def input (x : ℚ) (d : SimpleDerivator) : SimpleDerivator := { d with inputValue := x }

def execute (d : SimpleDerivator) : SimpleDerivator :=
  let d := { d with buffer := Function.update d.buffer d.index d.inputValue }
  { d with
    outputValue := (d.buffer d.index - d.buffer (d.index - 1)) / d.period
    index := d.index + 1 }

def reset (d : SimpleDerivator) : SimpleDerivator :=
  { d with outputValue := 0, index := 0, buffer := fun _ => 0 }

end SimpleDerivator

/-! ## The controller -/

/-- The specialisations, with the window of the filter. -/
inductive FilterDerivate
  | none
  | movingAverage (n : MovingAverage.Length)

namespace FilterDerivate

/-- `filter_derivative`. -/
abbrev State : FilterDerivate → Type
  | none => Unit
  | movingAverage _ => MovingAverage.State ℚ ℚ ℚ

/-- The constructor; the input of a moving average is not initialised. -/
def init (garbage : ℚ) : (filter : FilterDerivate) → filter.State
  | none => ()
  | movingAverage n => MovingAverage.init n garbage

/-- The derivative that is added up, and the filter afterwards. -/
def compute (x : ℚ) : (filter : FilterDerivate) → filter.State → Option (ℚ × filter.State)
  | none, s => some (x, s)
  | movingAverage n, s => (MovingAverage.compute MovingAverage.double n x s).map fun s => (s.outputValue, s)

def reset : (filter : FilterDerivate) → filter.State → filter.State
  | none, s => s
  | movingAverage _, s => MovingAverage.reset s

end FilterDerivate

structure Gains where
  kp : ℚ
  ki : ℚ
  kd : ℚ

structure PID (filter : FilterDerivate) where
  gains : Gains
  error : ℚ := 0
  derivator : SimpleDerivator
  integrator : Integrator
  filterDerivative : filter.State
  outputValue : ℚ

variable (method : IntegratorType) (filter : FilterDerivate)

/-- The constructor; what is not initialised holds `garbage`. -/
def construct (gains : Gains) (period garbage : ℚ) : PID filter where
  gains
  derivator := { period }
  integrator := { period, ki := gains.ki }
  filterDerivative := filter.init garbage
  outputValue :=
    match filter with
    | .none => 0
    | .movingAverage _ => garbage

namespace PID

variable {filter} (p : PID filter)

/-- `execute`, of an input that is given or set before. -/
def execute (x : ℚ) : Option (PID filter) := do
  let derivator := (p.derivator.input x).execute
  let integrator := (p.integrator.input x).execute method
  let (derivative, filterDerivative) ← filter.compute (p.gains.kd * derivator.outputValue) p.filterDerivative
  some { p with
    derivator
    integrator
    filterDerivative
    error := x
    outputValue := p.gains.kp * x + integrator.outputValue + derivative }

def reset : PID filter :=
  { p with
    integrator := p.integrator.reset method
    derivator := p.derivator.reset
    filterDerivative := filter.reset p.filterDerivative }

def setKp (kp : ℚ) : PID filter := reset method { p with gains := { p.gains with kp } }

def setKi (ki : ℚ) : PID filter := reset method { p with gains := { p.gains with ki } }

def setKd (kd : ℚ) : PID filter := reset method { p with gains := { p.gains with kd } }

end PID

inductive Call
  | execute (x : ℚ)
  | setKp (kp : ℚ)
  | setKi (ki : ℚ)
  | setKd (kd : ℚ)
  | reset

variable {filter}

def Call.apply (p : PID filter) : Call → Option (PID filter)
  | .execute x => p.execute method x
  | .setKp kp => some (p.setKp method kp)
  | .setKi ki => some (p.setKi method ki)
  | .setKd kd => some (p.setKd method kd)
  | .reset => some (p.reset method)

def run : List Call → PID filter → Option (PID filter)
  | [], p => some p
  | c :: cs, p => (c.apply method p).bind (run cs)

/-! ## What the calls ask for -/

/-- The gains last set. -/
def Call.set (gains : Gains) : Call → Gains
  | .setKp kp => { gains with kp }
  | .setKi ki => { gains with ki }
  | .setKd kd => { gains with kd }
  | _ => gains

/-- The inputs since the last call that was not an execution. -/
def Call.since (xs : List ℚ) : Call → List ℚ
  | .execute x => xs ++ [x]
  | _ => []

/-- What a method integrates of samples one unit of time apart. -/
def integral (method : IntegratorType) : List ℚ → ℚ
  | x :: y :: rest => method.sample x y + integral method (y :: rest)
  | _ => 0

/-- The slopes between samples, the first one after a zero. -/
def slopes (period : ℚ) (previous : ℚ) : List ℚ → List ℚ
  | [] => []
  | x :: rest => (x - previous) / period :: slopes period x rest

/-- What a filter gives out after the derivatives `l`. -/
def FilterDerivate.outputOf (l : List ℚ) : FilterDerivate → ℚ
  | none => l.getLast?.getD 0
  | movingAverage n => MovingAverage.outputOf n l

/-- The output of a controller whose integrator has the gain `ki`, after the inputs `xs`. -/
def output (method : IntegratorType) (filter : FilterDerivate) (period : ℚ) (gains : Gains) (ki : ℚ)
    (xs : List ℚ) : ℚ :=
  gains.kp * xs.getLast?.getD 0 + ki * period * integral method xs +
    filter.outputOf ((slopes period 0 xs).map (gains.kd * ·))

/-! ## The state after the last reset -/

/-- The state of a filter after the derivatives `l`. -/
def FilterDerivate.After (l : List ℚ) : (filter : FilterDerivate) → filter.State → Prop
  | none, _ => True
  | movingAverage n, s => MovingAverage.Averaged MovingAverage.double n s l

/-- The state of a derivator after the inputs `xs`. -/
structure Derives (period : ℚ) (d : SimpleDerivator) (xs : List ℚ) : Prop where
  period_eq : d.period = period
  previous : d.buffer (d.index - 1) = xs.getLast?.getD 0

/-- The state of an integrator with the gain `ki`. -/
structure Integrates (method : IntegratorType) (period ki : ℚ) (i : Integrator) (xs : List ℚ) : Prop where
  period_eq : i.period = period
  ki_eq : i.ki = ki
  first : i.firstExecution = xs.isEmpty
  previous : i.buffer (i.index - 1) = xs.getLast?.getD 0
  integral_eq : i.integral = ki * period * integral method xs

/-- The state of a controller after the inputs `xs` since it was reset; `ki` is the gain of its
integrator. -/
structure Tracks (period ki : ℚ) (p : PID filter) (xs : List ℚ) : Prop where
  derivator : Derives period p.derivator xs
  integrator : Integrates method period ki p.integrator xs
  filtered : filter.After ((slopes period 0 xs).map (p.gains.kd * ·)) p.filterDerivative

theorem integral_snoc (xs : List ℚ) (x : ℚ) :
    integral method (xs ++ [x]) =
      if xs.isEmpty then 0 else integral method xs + method.sample (xs.getLast?.getD 0) x := by
  induction xs with
  | nil => rfl
  | cons y xs ih =>
    cases xs with
    | nil => exact add_comm _ _
    | cons z xs =>
      change method.sample y z + integral method (z :: xs ++ [x]) = _
      rw [ih]
      change method.sample y z + (integral method (z :: xs) + _) =
        method.sample y z + integral method (z :: xs) + _
      rw [add_assoc]
      rfl

theorem slopes_snoc (period previous : ℚ) (xs : List ℚ) (x : ℚ) :
    slopes period previous (xs ++ [x]) =
      slopes period previous xs ++ [(x - xs.getLast?.getD previous) / period] := by
  induction xs generalizing previous with
  | nil => rfl
  | cons y xs ih =>
    rw [List.cons_append, slopes, slopes, ih]
    cases xs with
    | nil => rfl
    | cons z xs => rfl

theorem FilterDerivate.after_init (filter : FilterDerivate) (garbage : ℚ) :
    filter.After [] (filter.init garbage) := by
  cases filter with
  | none => trivial
  | movingAverage n => exact MovingAverage.averaged_init _ n garbage

theorem FilterDerivate.After.reset {l : List ℚ} {s : filter.State} (h : filter.After l s) :
    filter.After [] (filter.reset s) := by
  cases filter with
  | none => trivial
  | movingAverage n => exact MovingAverage.Averaged.reset h

theorem FilterDerivate.After.compute {l : List ℚ} {s : filter.State} (h : filter.After l s) (x : ℚ) :
    ∃ t, filter.compute x s = some (filter.outputOf (l ++ [x]), t) ∧ filter.After (l ++ [x]) t := by
  cases filter with
  | none =>
    refine ⟨s, ?_, trivial⟩
    rw [FilterDerivate.compute, FilterDerivate.outputOf, List.getLast?_concat]
    rfl
  | movingAverage n =>
    obtain ⟨t, ht, hafter⟩ := MovingAverage.Averaged.compute h x
    refine ⟨t, ?_, hafter⟩
    rw [FilterDerivate.compute, ht, Option.map_some, MovingAverage.Averaged.outputValue hafter]
    rfl

theorem getLast_snoc (xs : List ℚ) (x : ℚ) : (xs ++ [x]).getLast?.getD 0 = x := by
  rw [List.getLast?_concat, Option.getD_some]

/-- The slot before an index of two is the other one. -/
theorem sub_one_ne (i : Fin 2) : i - 1 ≠ i := by
  revert i
  decide

theorem Derives.execute {period : ℚ} {d : SimpleDerivator} {xs : List ℚ} (h : Derives period d xs) (x : ℚ) :
    Derives period (d.input x).execute (xs ++ [x]) ∧
      (d.input x).execute.outputValue = (x - xs.getLast?.getD 0) / period := by
  refine ⟨⟨h.period_eq, ?_⟩, ?_⟩
  · change Function.update d.buffer d.index x (d.index + 1 - 1) = _
    rw [add_sub_cancel_right, Function.update_self, getLast_snoc]
  · change (Function.update d.buffer d.index x d.index -
      Function.update d.buffer d.index x (d.index - 1)) / d.period = _
    rw [Function.update_self, Function.update_of_ne (sub_one_ne _), h.previous, h.period_eq]

/-- An execution after a reset takes the sample and integrates nothing. -/
theorem Integrator.execute_first {i : Integrator} (h : i.firstExecution = true) :
    i.execute method = { i with
      buffer := Function.update i.buffer i.index i.inputValue
      firstExecution := false
      index := i.index + 1
      outputValue := 0 } := by
  cases i
  exact if_pos h

/-- A later one adds its sample. -/
theorem Integrator.execute_later {i : Integrator} (h : i.firstExecution = false) {added : ℚ}
    (hadded : added = i.integral + i.ki * i.period *
      method.sample (Function.update i.buffer i.index i.inputValue (i.index - 1))
        (Function.update i.buffer i.index i.inputValue i.index)) :
    i.execute method = { i with
      buffer := Function.update i.buffer i.index i.inputValue
      integral := added
      outputValue := added
      index := i.index + 1 } := by
  have hnot : ¬ i.firstExecution = true := by
    rw [h]
    exact Bool.false_ne_true
  subst hadded
  cases i
  exact if_neg hnot

theorem Integrates.execute {period ki : ℚ} {i : Integrator} {xs : List ℚ}
    (h : Integrates method period ki i xs) (x : ℚ) :
    Integrates method period ki ((i.input x).execute method) (xs ++ [x]) ∧
      ((i.input x).execute method).outputValue = ki * period * integral method (xs ++ [x]) := by
  have hfirst := h.first
  have hslot : Function.update i.buffer i.index x (i.index + 1 - 1) = (xs ++ [x]).getLast?.getD 0 := by
    rw [add_sub_cancel_right, Function.update_self, getLast_snoc]
  have hmore : (xs ++ [x]).isEmpty = false := by cases xs <;> rfl
  cases hempty : xs.isEmpty with
  | true =>
    obtain rfl := List.isEmpty_iff.mp hempty
    rw [Integrator.execute_first method (i := i.input x) (hfirst.trans hempty)]
    exact ⟨⟨h.period_eq, h.ki_eq, rfl, hslot, h.integral_eq⟩, (mul_zero _).symm⟩
  | false =>
    have hsum : ki * period * integral method (xs ++ [x]) = i.integral + i.ki * i.period *
        method.sample (Function.update i.buffer i.index x (i.index - 1))
          (Function.update i.buffer i.index x i.index) := by
      rw [integral_snoc, hempty, if_neg Bool.false_ne_true, Function.update_self,
        Function.update_of_ne (sub_one_ne _), h.previous, h.integral_eq, h.ki_eq, h.period_eq, mul_add]
    rw [Integrator.execute_later method (i := i.input x) (hfirst.trans hempty) hsum]
    exact ⟨⟨h.period_eq, h.ki_eq, (hfirst.trans hempty).trans hmore.symm, hslot, rfl⟩, rfl⟩

theorem tracks_construct (filter : FilterDerivate) (gains : Gains) (period garbage : ℚ) :
    Tracks method period gains.ki (construct filter gains period garbage) [] where
  derivator := ⟨rfl, rfl⟩
  integrator := ⟨rfl, rfl, rfl, rfl, (mul_zero _).symm⟩
  filtered := filter.after_init garbage

variable {method} {period ki : ℚ} {p : PID filter} {xs : List ℚ}

/-- However the gains change, a reset forgets the inputs. -/
theorem Tracks.reset (h : Tracks method period ki p xs) (gains : Gains) :
    Tracks method period ki (PID.reset method { p with gains }) [] where
  derivator := ⟨h.derivator.period_eq, rfl⟩
  integrator := ⟨h.integrator.period_eq, h.integrator.ki_eq, rfl, rfl, (mul_zero _).symm⟩
  filtered := h.filtered.reset

theorem Tracks.execute (h : Tracks method period ki p xs) (x : ℚ) :
    ∃ q, p.execute method x = some q ∧ q.gains = p.gains ∧ Tracks method period ki q (xs ++ [x]) ∧
      q.outputValue = output method filter period p.gains ki (xs ++ [x]) := by
  obtain ⟨hderives, hslope⟩ := h.derivator.execute x
  obtain ⟨hintegrates, hintegral⟩ := h.integrator.execute method x
  obtain ⟨t, ht, hfiltered⟩ := h.filtered.compute (p.gains.kd * (p.derivator.input x).execute.outputValue)
  have hslopes : (slopes period 0 xs).map (p.gains.kd * ·) ++
      [p.gains.kd * (p.derivator.input x).execute.outputValue] =
        (slopes period 0 (xs ++ [x])).map (p.gains.kd * ·) := by
    rw [slopes_snoc, List.map_append, List.map_singleton, hslope]
  rw [hslopes] at ht hfiltered
  have hexecute : p.execute method x = some { p with
      derivator := (p.derivator.input x).execute
      integrator := (p.integrator.input x).execute method
      filterDerivative := t
      error := x
      outputValue := output method filter period p.gains ki (xs ++ [x]) } := by
    rw [PID.execute, ht, output, getLast_snoc, ← hintegral]
    rfl
  exact ⟨_, hexecute, rfl, ⟨hderives, hintegrates, hfiltered⟩, rfl⟩

/-- A call tracks what it asks for. -/
theorem Tracks.apply (h : Tracks method period ki p xs) (c : Call) :
    ∃ q, c.apply method p = some q ∧ q.gains = c.set p.gains ∧ Tracks method period ki q (c.since xs) := by
  cases c with
  | execute x =>
    obtain ⟨q, hq, hgains, hnext, -⟩ := h.execute x
    exact ⟨q, hq, hgains, hnext⟩
  | setKp kp => exact ⟨_, rfl, rfl, h.reset _⟩
  | setKi ki => exact ⟨_, rfl, rfl, h.reset _⟩
  | setKd kd => exact ⟨_, rfl, rfl, h.reset _⟩
  | reset => exact ⟨_, rfl, rfl, h.reset _⟩

theorem Tracks.run (h : Tracks method period ki p xs) (calls : List Call) :
    ∃ q, run method calls p = some q ∧ q.gains = calls.foldl Call.set p.gains ∧
      Tracks method period ki q (calls.foldl Call.since xs) := by
  induction calls generalizing p xs with
  | nil => exact ⟨p, rfl, rfl, h⟩
  | cons c calls ih =>
    obtain ⟨u, hu, hgains, hnext⟩ := h.apply c
    obtain ⟨q, hq, hlast, htracks⟩ := ih hnext
    exact ⟨q, by rw [Pid.run, hu]; exact hq, by rw [hlast, hgains]; rfl, htracks⟩

theorem run_append (method : IntegratorType) (before after : List Call) (p : PID filter) :
    run method (before ++ after) p = (run method before p).bind (run method after) := by
  induction before generalizing p with
  | nil => rfl
  | cons c before ih =>
    rw [List.cons_append, Pid.run, Pid.run, Option.bind_assoc]
    exact congrArg _ (funext ih)

/-- The output of the execution of `x` after some calls. -/
theorem run_execute (method : IntegratorType) (filter : FilterDerivate) (gains : Gains) (period garbage : ℚ)
    (calls : List Call) (x : ℚ) :
    (run method (calls ++ [.execute x]) (construct filter gains period garbage)).map PID.outputValue =
      some (output method filter period (calls.foldl Call.set gains) gains.ki
        (calls.foldl Call.since [] ++ [x])) := by
  obtain ⟨p, hp, hgains, htracks⟩ := (tracks_construct method filter gains period garbage).run calls
  obtain ⟨q, hq, -, -, houtput⟩ := htracks.execute x
  have hlast : run method [.execute x] p = some q := by
    rw [Pid.run, Call.apply, hq]
    rfl
  rw [run_append, hp, Option.bind_some, hlast, Option.map_some, houtput, hgains]
  rfl

/-! ## A controller with the gains last set -/

theorem foldl_set_execute (gains : Gains) (xs : List ℚ) :
    (xs.map Call.execute).foldl Call.set gains = gains := by
  induction xs with
  | nil => rfl
  | cons x xs ih => exact ih

theorem foldl_since_execute (previous xs : List ℚ) :
    (xs.map Call.execute).foldl Call.since previous = previous ++ xs := by
  induction xs generalizing previous with
  | nil => exact (List.append_nil previous).symm
  | cons x xs ih =>
    rw [List.map_cons, List.foldl_cons, ih]
    exact List.append_assoc previous [x] xs

variable (method) (filter) (gains : Gains) (period garbage fresh : ℚ)

/-- The execution of `x` after some calls gives out what a new controller does that has the gains
last set and is fed with the inputs since the last setter or reset. -/
def Agrees (calls : List Call) (x : ℚ) : Prop :=
  ∃ y,
    (run method (calls ++ [.execute x]) (construct filter gains period garbage)).map PID.outputValue = some y ∧
    (run method ((calls.foldl Call.since [] ++ [x]).map Call.execute)
      (construct filter (calls.foldl Call.set gains) period fresh)).map PID.outputValue = some y

/-- The integrator keeps the gain of its construction, which is seen where it has integrated. -/
def KiHolds (calls : List Call) (x : ℚ) : Prop :=
  (calls.foldl Call.set gains).ki = gains.ki ∨ integral method (calls.foldl Call.since [] ++ [x]) = 0

theorem output_eq_iff (method : IntegratorType) (filter : FilterDerivate) {period : ℚ} (h : period ≠ 0)
    (gains : Gains) (ki ki' : ℚ) (xs : List ℚ) :
    output method filter period gains ki xs = output method filter period gains ki' xs ↔
      ki = ki' ∨ integral method xs = 0 := by
  rw [output, output, add_left_inj, add_right_inj, mul_assoc, mul_assoc, mul_eq_mul_right_iff, mul_eq_zero]
  exact or_congr_right (or_iff_right h)

variable {method filter gains period garbage fresh}

theorem agrees_iff (h : period ≠ 0) (calls : List Call) (x : ℚ) :
    Agrees method filter gains period garbage fresh calls x ↔ KiHolds method gains calls x := by
  have hactual := run_execute method filter gains period garbage calls x
  have hfresh := run_execute method filter (calls.foldl Call.set gains) period fresh
    ((calls.foldl Call.since []).map Call.execute) x
  rw [foldl_set_execute, foldl_since_execute, List.nil_append, ← List.map_singleton, ← List.map_append] at hfresh
  have hkeep := output_eq_iff method filter h (calls.foldl Call.set gains)
    (calls.foldl Call.set gains).ki gains.ki (calls.foldl Call.since [] ++ [x])
  rw [KiHolds, ← hkeep, Agrees, hactual, hfresh]
  constructor
  · rintro ⟨y, hy, hfresh⟩
    exact Option.some.inj (hfresh.trans hy.symm)
  · intro heq
    exact ⟨_, rfl, congrArg some heq⟩

/-- The executions of a sequence of calls agree if and only if at each of them the `ki` last set is
the one that the controller was constructed with, or nothing is integrated. -/
theorem outputs_fresh_iff (h : period ≠ 0) (calls : List Call) :
    (∀ before x, before ++ [.execute x] <+: calls → Agrees method filter gains period garbage fresh before x) ↔
      ∀ before x, before ++ [.execute x] <+: calls → KiHolds method gains before x :=
  forall₃_congr fun before x _ => agrees_iff h before x

theorem outputs_fresh_iff_reset :
    (∀ before x, before ++ [.execute x] <+: [.execute 1, .setKp 2, .execute 3, .reset, .execute 5] →
      Agrees .trapezoidal (.movingAverage ⟨2, by decide⟩) ⟨1, 1, 1⟩ 1 0 0 before x) ↔
      ∀ before x, before ++ [.execute x] <+: [.execute 1, .setKp 2, .execute 3, .reset, .execute 5] →
        KiHolds .trapezoidal ⟨1, 1, 1⟩ before x :=
  outputs_fresh_iff one_ne_zero _

/-- A gain that is set is not integrated with. -/
theorem set_ki_stale :
    ¬ ∀ before x, before ++ [.execute x] <+: [.setKi 1, .execute 1, .execute 1] →
      Agrees .forwardEuler .none ⟨0, 0, 0⟩ 1 0 0 before x := by
  intro h
  have hlast := (agrees_iff one_ne_zero _ _).mp (h [.setKi 1, .execute 1] 1 List.prefix_rfl)
  have hki : ([.setKi 1, .execute 1].foldl Call.set ⟨0, 0, 0⟩).ki = 1 := rfl
  have hintegral : integral .forwardEuler ([.setKi 1, .execute 1].foldl Call.since [] ++ [1]) = 1 := add_zero 1
  rw [KiHolds, hki, hintegral, or_self] at hlast
  exact absurd hlast one_ne_zero

end StLib.Control.Pid
