import StLib.Base.Mealy

/-! # Control systems

`ControlSystem.hpp`. Blocks are objects in memory that a system reaches through references:
`input` gives a value to the first block, and `execute` runs them in order and hands the output
of each to the next. A system of different blocks is the composition of their machines. -/
namespace StLib.Control.Systems

open StLib.Base.Mealy

/-- A part of the memory that is read and written as one value, such as an object. -/
structure Cell (W C : Type) where
  get : W → C
  set : C → W → W
  get_set : ∀ c w, get (set c w) = c

/-- Writing one of two cells leaves the other. -/
structure Apart {W C D : Type} (c : Cell W C) (d : Cell W D) : Prop where
  get_set : ∀ x w, c.get (d.set x w) = c.get w
  set_get : ∀ x w, d.get (c.set x w) = d.get w

variable {W : Type}

/-- A reference to a `ControlBlock`: what its virtual functions do to the memory. -/
structure ControlBlock (W I O : Type) where
  input : I → W → W
  execute : W → W
  outputValue : W → O

/-- A system from its first block on; the last one was connected last. -/
inductive ControlSystem (W I : Type) : Type → Type 1
  | block {O : Type} (controlBlock : ControlBlock W I O) : ControlSystem W I O
  | connect {M O : Type} (following : ControlSystem W I M) (next : ControlBlock W M O) : ControlSystem W I O

namespace ControlSystem

/-- `input` goes down to the first block. -/
def input {I O : Type} : ControlSystem W I O → I → W → W
  | block controlBlock, value, w => controlBlock.input value w
  | connect following _, value, w => following.input value w

/-- `execute(parent)`: the system runs, and its output is the input of the parent's block. -/
def executeInto {I M O : Type} : ControlSystem W I M → ControlBlock W M O → W → W
  | block controlBlock, parent, w =>
    parent.input (controlBlock.outputValue (controlBlock.execute w)) (controlBlock.execute w)
  | connect following controlBlock, parent, w =>
    let w := controlBlock.execute (following.executeInto controlBlock w)
    parent.input (controlBlock.outputValue w) w

def execute {I O : Type} : ControlSystem W I O → W → W
  | block controlBlock, w => controlBlock.execute w
  | connect following controlBlock, w => controlBlock.execute (following.executeInto controlBlock w)

/-- The output of the last block. -/
def outputValue {I O : Type} : ControlSystem W I O → W → O
  | block controlBlock, w => controlBlock.outputValue w
  | connect _ controlBlock, w => controlBlock.outputValue w

/-- `create_control_system` on a system that exists: its blocks are connected one by one. -/
def append {I M O : Type} (base : ControlSystem W I M) : ControlSystem W M O → ControlSystem W I O
  | block controlBlock => connect base controlBlock
  | connect following controlBlock => connect (append base following) controlBlock

theorem executeInto_eq {I M O : Type} (S : ControlSystem W I M) (parent : ControlBlock W M O) (w : W) :
    S.executeInto parent w = parent.input (S.outputValue (S.execute w)) (S.execute w) := by
  cases S <;> rfl

variable {I M O : Type} (S : ControlSystem W I M)

@[simp] theorem outputValue_connect (next : ControlBlock W M O) (w : W) :
    (connect S next).outputValue w = next.outputValue w := rfl

theorem execute_connect (next : ControlBlock W M O) (w : W) :
    (connect S next).execute w = next.execute (next.input (S.outputValue (S.execute w)) (S.execute w)) := by
  rw [execute, executeInto_eq]

theorem input_append (T : ControlSystem W M O) (value : I) (w : W) :
    (S.append T).input value w = S.input value w := by
  induction T with
  | block controlBlock => rfl
  | connect following controlBlock ih => exact ih

theorem outputValue_append (T : ControlSystem W M O) (w : W) : (S.append T).outputValue w = T.outputValue w := by
  cases T <;> rfl

/-- A system in two parts runs the first, hands its output to the second, and runs that. -/
theorem execute_append (T : ControlSystem W M O) (w : W) :
    (S.append T).execute w = T.execute (T.input (S.outputValue (S.execute w)) (S.execute w)) := by
  induction T with
  | block controlBlock => exact execute_connect S controlBlock w
  | connect following controlBlock ih =>
    rw [append, execute_connect, execute_connect, outputValue_append, ih, input]

end ControlSystem

/-! ## Blocks -/

/-- An object of a class of blocks, whose own fields are the state. -/
structure Object (σ I O : Type) where
  state : σ
  inputValue : I
  outputValue : O

/-- A block whose `execute` reads and writes its own object. -/
def blockAt {σ I O : Type} (cell : Cell W (Object σ I O)) (machine : Mealy σ I O) : ControlBlock W I O where
  input value w := cell.set { cell.get w with inputValue := value } w
  execute w :=
    let r := machine.step (cell.get w).state (cell.get w).inputValue
    cell.set { cell.get w with state := r.1, outputValue := r.2 } w
  outputValue w := (cell.get w).outputValue

/-- Blocks in a row, each with the cell of its object and with its machine. -/
inductive Pipeline (W I : Type) : Type → Type → Type 1
  | block {σ O : Type} (cell : Cell W (Object σ I O)) (machine : Mealy σ I O) : Pipeline W I σ O
  | connect {σ τ M O : Type} (following : Pipeline W I σ M) (cell : Cell W (Object τ M O))
      (machine : Mealy τ M O) : Pipeline W I (σ × τ) O

namespace Pipeline

variable {I : Type}

def system {σ O : Type} : Pipeline W I σ O → ControlSystem W I O
  | block cell machine => .block (blockAt cell machine)
  | connect following cell machine => .connect following.system (blockAt cell machine)

/-- What the pipeline computes. -/
def machine {σ O : Type} : Pipeline W I σ O → Mealy σ I O
  | block _ machine => machine
  | connect following _ machine => following.machine.comp machine

def state {σ O : Type} : Pipeline W I σ O → W → σ
  | block cell _, w => (cell.get w).state
  | connect following cell _, w => (following.state w, (cell.get w).state)

/-- The input that the first block holds. -/
def inputValue {σ O : Type} : Pipeline W I σ O → W → I
  | block cell _, w => (cell.get w).inputValue
  | connect following _ _, w => following.inputValue w

/-- A cell that no block of the pipeline is in. -/
def Misses {σ O C : Type} : Pipeline W I σ O → Cell W C → Prop
  | block cell _, other => Apart cell other
  | connect following cell _, other => following.Misses other ∧ Apart cell other

/-- The blocks are different objects. -/
def Distinct {σ O : Type} : Pipeline W I σ O → Prop
  | block _ _ => True
  | connect following cell _ => following.Distinct ∧ following.Misses cell

variable {σ O C : Type} {p : Pipeline W I σ O} {other : Cell W C}

/-- Writing elsewhere changes nothing that the pipeline holds. -/
theorem Misses.set (h : p.Misses other) (x : C) (w : W) :
    p.state (other.set x w) = p.state w ∧ p.inputValue (other.set x w) = p.inputValue w := by
  induction p with
  | block cell machine =>
    have hget : cell.get (other.set x w) = cell.get w := Apart.get_set h x w
    simp [state, inputValue, hget]
  | connect following cell machine ih =>
    obtain ⟨hstate, hinput⟩ := ih h.1
    have hget : cell.get (other.set x w) = cell.get w := h.2.get_set x w
    simp [state, inputValue, hstate, hinput, hget]

/-- The pipeline changes nothing elsewhere. -/
theorem Misses.get_input (h : p.Misses other) (value : I) (w : W) :
    other.get (p.system.input value w) = other.get w := by
  induction p with
  | block cell machine => exact Apart.set_get h _ w
  | connect following cell machine ih => exact ih h.1

theorem Misses.get_execute (h : p.Misses other) (w : W) : other.get (p.system.execute w) = other.get w := by
  induction p generalizing w with
  | block cell machine => exact Apart.set_get h _ w
  | connect following cell machine ih =>
    rw [system, ControlSystem.execute_connect]
    simp only [blockAt, h.2.set_get, ih h.1]

/-- A value given to the pipeline is what the first block holds. -/
theorem input_eq (h : p.Distinct) (value : I) (w : W) :
    p.state (p.system.input value w) = p.state w ∧ p.inputValue (p.system.input value w) = value := by
  induction p with
  | block cell machine => simp [state, inputValue, system, ControlSystem.input, blockAt, cell.get_set]
  | connect following cell machine ih =>
    obtain ⟨hstate, hinput⟩ := ih h.1
    have hget : cell.get (following.system.input value w) = cell.get w := h.2.get_input value w
    simp [state, inputValue, system, ControlSystem.input, hstate, hinput, hget]

/-- **One execution** is one step of the composed machine on the input that is held. -/
theorem execute_eq (h : p.Distinct) (w : W) :
    p.state (p.system.execute w) = (p.machine.step (p.state w) (p.inputValue w)).1 ∧
      p.system.outputValue (p.system.execute w) = (p.machine.step (p.state w) (p.inputValue w)).2 ∧
      p.inputValue (p.system.execute w) = p.inputValue w := by
  induction p generalizing w with
  | block cell machine =>
    simp [state, inputValue, system, ControlSystem.execute, ControlSystem.outputValue, blockAt, cell.get_set,
      Pipeline.machine]
  | connect following cell machine ih =>
    obtain ⟨hstate, houtput, hinput⟩ := ih h.1 w
    have hkept : cell.get (following.system.execute w) = cell.get w := h.2.get_execute w
    rw [system, ControlSystem.execute_connect, houtput]
    simp [state, inputValue, blockAt, (h.2.set _ _).1, (h.2.set _ _).2, hstate, hinput,
      cell.get_set, hkept, Pipeline.machine, Mealy.comp]

end Pipeline

/-! ## Runs -/

inductive Call (I : Type)
  | input (value : I)
  | execute

/-- The outputs after each execution. -/
def run {I O : Type} (S : ControlSystem W I O) : W → List (Call I) → List O
  | _, [] => []
  | w, .input value :: calls => run S (S.input value w) calls
  | w, .execute :: calls => S.outputValue (S.execute w) :: run S (S.execute w) calls

/-- The inputs that the executions find: the last one given before each. -/
def executed {I : Type} : I → List (Call I) → List I
  | _, [] => []
  | _, .input value :: calls => executed value calls
  | held, .execute :: calls => held :: executed held calls

/-- **A system of different blocks** computes the composition of their machines, over any calls
of `input` and `execute`: each output is that of all blocks on the input given last, however
the memory holds the blocks. -/
theorem system_composes {I σ O : Type} {p : Pipeline W I σ O} (h : p.Distinct) (w : W) (calls : List (Call I)) :
    run p.system w calls = p.machine.outputs (p.state w) (executed (p.inputValue w) calls) := by
  induction calls generalizing w with
  | nil => rfl
  | cons call calls ih =>
    cases call with
    | input value =>
      obtain ⟨hstate, hinput⟩ := Pipeline.input_eq h value w
      rw [run, ih, executed, hstate, hinput]
    | execute =>
      obtain ⟨hstate, houtput, hinput⟩ := Pipeline.execute_eq h w
      rw [run, ih, executed, Mealy.outputs_cons, hstate, houtput, hinput]

/-! ## Two blocks -/

/-- `Saturator::execute`. -/
def saturator {α : Type} [LT α] [DecidableLT α] (lowerBound upperBound : α) : Mealy Unit α α where
  step _ value := ((), if upperBound < value then upperBound else if value < lowerBound then lowerBound else value)

/-- A sum of the inputs. -/
def runningSum : Mealy Int Int Int where
  step sum value := (sum + value, sum + value)

structure Limited where
  sum : Object Int Int Int
  limit : Object Unit Int Int

def Limited.sumCell : Cell Limited (Object Int Int Int) where
  get := sum
  set x w := { w with sum := x }
  get_set _ _ := rfl

def Limited.limitCell : Cell Limited (Object Unit Int Int) where
  get := limit
  set x w := { w with limit := x }
  get_set _ _ := rfl

/-- A sum that is limited. -/
def limitedSum : Pipeline Limited Int (Int × Unit) Int :=
  .connect (.block Limited.sumCell runningSum) Limited.limitCell (saturator 0 10)

def limitedStart : Limited where
  sum := { state := 0, inputValue := 0, outputValue := 0 }
  limit := { state := (), inputValue := 0, outputValue := 0 }

/-- An input counts again in each execution until another one is given. -/
theorem system_composes_limited :
    run limitedSum.system limitedStart [.input 4, .execute, .execute, .input 9, .execute] = [4, 8, 10] := by
  have hdistinct : limitedSum.Distinct := ⟨trivial, ⟨fun _ _ => rfl, fun _ _ => rfl⟩⟩
  rw [system_composes hdistinct]
  rfl

end StLib.Control.Systems
