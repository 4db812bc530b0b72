import StLib.Control.Systems

/-! # Feedback loops

`FeedbackControlBlock.hpp` and `SplitterBlock.hpp`. A system whose last block splits its output
and hands it back to the first, which takes two inputs, computes the closed loop: each
execution sees the input given last and the output of the execution before. -/
namespace StLib.Control.Loops

open StLib.Base.Mealy StLib.Control.Systems

variable {W σ τ A B : Type}

/-- A machine on two inputs that keeps the second one, `input_value_b`, between executions. -/
def keepsB (machine : Mealy σ (A × A) B) : Mealy (σ × A) A B where
  step s a := (((machine.step s.1 (a, s.2)).1, s.2), (machine.step s.1 (a, s.2)).2)

/-- `FeedbackControlBlock::input_b`. -/
def inputB (cell : Cell W (Object (σ × A) A B)) (value : A) (w : W) : W :=
  cell.set { cell.get w with state := ((cell.get w).state.1, value) } w

/-- `SplitterBlock`, with the function that it feeds back to, where one is connected. -/
def splitterAt (cell : Cell W (Object Unit A A)) (feedbackInput : Option (A → W → W)) : ControlBlock W A A where
  input value w := cell.set { cell.get w with inputValue := value } w
  execute w :=
    let w := cell.set { cell.get w with outputValue := (cell.get w).inputValue } w
    feedbackInput.elim w fun feedback => feedback (cell.get w).outputValue w
  outputValue w := (cell.get w).outputValue

/-- The block that closes the loop, the blocks between, and the splitter behind them. -/
structure Loop (W σ τ A B : Type) where
  first : Cell W (Object (σ × A) A B)
  machine : Mealy σ (A × A) B
  rest : Pipeline W B τ A
  last : Cell W (Object Unit A A)
  distinct : rest.Distinct
  first_rest : rest.Misses first
  last_rest : rest.Misses last
  first_last : Apart first last

namespace Loop

variable (l : Loop W σ τ A B)

def system : ControlSystem W A A :=
  .connect ((ControlSystem.block (blockAt l.first (keepsB l.machine))).append l.rest.system)
    (splitterAt l.last (some (inputB l.first)))

/-- What all blocks compute on an input and on what comes back. -/
def chain : Mealy (σ × τ) (A × A) A := l.machine.comp l.rest.machine

/-- The state of the blocks, and what came back last. -/
def state (w : W) : (σ × τ) × A := (((l.first.get w).state.1, l.rest.state w), (l.first.get w).state.2)

def inputValue (w : W) : A := (l.first.get w).inputValue

variable {l}

/-- What the splitter does: the value stays in it as its output, and comes back. -/
theorem splitter_eq (value : A) (w : W) :
    let w' := (splitterAt l.last (some (inputB l.first))).execute
      ((splitterAt l.last (some (inputB l.first))).input value w)
    (splitterAt l.last (some (inputB l.first))).outputValue w' = value ∧
      l.first.get w' = { l.first.get w with state := ((l.first.get w).state.1, value) } ∧
      l.rest.state w' = l.rest.state w := by
  have hrest := l.first_rest.set
  have hlast := l.last_rest.set
  simp [splitterAt, inputB, l.last.get_set, l.first.get_set, l.first_last.get_set, l.first_last.set_get,
    (hrest _ _).1, (hlast _ _).1]

theorem input_eq (value : A) (w : W) :
    l.state (l.system.input value w) = l.state w ∧ l.inputValue (l.system.input value w) = value := by
  have hrest := (l.first_rest.set { l.first.get w with inputValue := value } w).1
  rw [system, ControlSystem.input, ControlSystem.input_append]
  simp [state, inputValue, ControlSystem.input, blockAt, l.first.get_set, hrest]

/-- What the first block does: it runs on both of its inputs, and keeps the second. -/
theorem first_eq (w : W) :
    let r := l.machine.step (l.first.get w).state.1 ((l.first.get w).inputValue, (l.first.get w).state.2)
    let w' := (ControlSystem.block (blockAt l.first (keepsB l.machine))).execute w
    (ControlSystem.block (blockAt l.first (keepsB l.machine))).outputValue w' = r.2 ∧
      l.first.get w' =
        { l.first.get w with state := (r.1, (l.first.get w).state.2), outputValue := r.2 } ∧
      l.rest.state w' = l.rest.state w := by
  have hrest := l.first_rest.set
  simp [ControlSystem.execute, ControlSystem.outputValue, blockAt, keepsB, l.first.get_set, (hrest _ _).1]

/-- **One execution** of the loop is one step of the machine whose output is fed back. -/
theorem execute_eq (w : W) :
    l.state (l.system.execute w) = (l.chain.feedback.step (l.state w) (l.inputValue w)).1 ∧
      l.system.outputValue (l.system.execute w) = (l.chain.feedback.step (l.state w) (l.inputValue w)).2 ∧
      l.inputValue (l.system.execute w) = l.inputValue w := by
  rw [system, ControlSystem.execute_connect, ControlSystem.execute_append, ControlSystem.outputValue_append]
  obtain ⟨hout₁, hget₁, hrest₁⟩ := first_eq (l := l) w
  generalize (ControlSystem.block (blockAt l.first (keepsB l.machine))).execute w = w₁ at hout₁ hget₁ hrest₁ ⊢
  rw [hout₁]
  generalize hr : l.machine.step (l.first.get w).state.1 ((l.first.get w).inputValue, (l.first.get w).state.2) = r
    at hget₁ ⊢
  -- the blocks between run on its output
  obtain ⟨hstate₂, hinput₂⟩ := Pipeline.input_eq l.distinct r.2 w₁
  obtain ⟨hstate₃, hout₃, -⟩ := Pipeline.execute_eq l.distinct (l.rest.system.input r.2 w₁)
  have hget₃ : l.first.get (l.rest.system.execute (l.rest.system.input r.2 w₁)) = l.first.get w₁ :=
    (l.first_rest.get_execute _).trans (l.first_rest.get_input _ _)
  rw [hstate₂, hinput₂, hrest₁] at hstate₃ hout₃
  generalize l.rest.system.execute (l.rest.system.input r.2 w₁) = w₃ at hstate₃ hout₃ hget₃ ⊢
  -- and the splitter hands theirs back
  rw [hout₃]
  obtain ⟨hout₄, hget₄, hrest₄⟩ := splitter_eq (l := l) (l.rest.machine.step (l.rest.state w) r.2).2 w₃
  simp only [state, inputValue, ControlSystem.outputValue_connect, hget₄, hrest₄, hget₃, hget₁, hstate₃, hout₄,
    chain, Mealy.feedback, Mealy.comp, hr, and_self]

/-- **The closed loop**: over any calls of `input` and `execute`, the outputs are those of all
blocks on the inputs given last and on the outputs themselves, one execution later. -/
theorem loop_closes (w : W) (calls : List (Call A)) :
    run l.system w calls =
      l.chain.outputs (l.state w).1
        ((executed (l.inputValue w) calls).zip ((l.state w).2 :: run l.system w calls)) := by
  have hrun : run l.system w calls =
      l.chain.feedback.outputs (l.state w) (executed (l.inputValue w) calls) := by
    induction calls generalizing w with
    | nil => rfl
    | cons call calls ih =>
      cases call with
      | input value =>
        obtain ⟨hstate, hinput⟩ := input_eq (l := l) value w
        rw [run, ih, executed, hstate, hinput]
      | execute =>
        obtain ⟨hstate, houtput, hinput⟩ := execute_eq (l := l) w
        rw [run, ih, executed, Mealy.outputs_cons, hstate, houtput, hinput]
  rw [hrun]
  exact Mealy.outputs_feedback l.chain (l.state w).1 (l.state w).2 _

end Loop

/-! ## A tracking loop -/

structure Tracking where
  difference : Object (Unit × Int) Int Int
  sum : Object Int Int Int
  splitter : Object Unit Int Int

def Tracking.differenceCell : Cell Tracking (Object (Unit × Int) Int Int) where
  get := difference
  set x w := { w with difference := x }
  get_set _ _ := rfl

def Tracking.sumCell : Cell Tracking (Object Int Int Int) where
  get := sum
  set x w := { w with sum := x }
  get_set _ _ := rfl

def Tracking.splitterCell : Cell Tracking (Object Unit Int Int) where
  get := splitter
  set x w := { w with splitter := x }
  get_set _ _ := rfl

/-- The difference of what is wanted and what came back is summed. -/
def tracking : Loop Tracking Unit Int Int Int where
  first := Tracking.differenceCell
  machine := { step := fun _ inputs => ((), inputs.1 - inputs.2) }
  rest := .block Tracking.sumCell runningSum
  last := Tracking.splitterCell
  distinct := trivial
  first_rest := ⟨fun _ _ => rfl, fun _ _ => rfl⟩
  last_rest := ⟨fun _ _ => rfl, fun _ _ => rfl⟩
  first_last := ⟨fun _ _ => rfl, fun _ _ => rfl⟩

def trackingStart : Tracking where
  difference := { state := ((), 0), inputValue := 0, outputValue := 0 }
  sum := { state := 0, inputValue := 0, outputValue := 0 }
  splitter := { state := (), inputValue := 0, outputValue := 0 }

example : run tracking.system trackingStart [.input 8, .execute, .execute, .input 3, .execute] = [8, 8, 3] := by
  decide

end StLib.Control.Loops
