import Mathlib.Tactic.Common

/-! # Mealy machines

Machines that answer each input with an output, one behind another and with their output fed
back, delayed by one. -/
namespace StLib.Base.Mealy

structure Mealy (σ ι ο : Type*) where
  step : σ → ι → σ × ο

variable {σ τ ι μ ο : Type*}

namespace Mealy

/-- The outputs for a list of inputs. -/
def outputs (M : Mealy σ ι ο) : σ → List ι → List ο
  | _, [] => []
  | s, i :: is => (M.step s i).2 :: M.outputs (M.step s i).1 is

/-- One machine, then the other on its output. -/
def comp (M : Mealy σ ι μ) (N : Mealy τ μ ο) : Mealy (σ × τ) ι ο where
  step s i := (((M.step s.1 i).1, (N.step s.2 (M.step s.1 i).2).1), (N.step s.2 (M.step s.1 i).2).2)

/-- Each output comes back with the next input. -/
def feedback (M : Mealy σ (ι × ο) ο) : Mealy (σ × ο) ι ο where
  step s i := (((M.step s.1 (i, s.2)).1, (M.step s.1 (i, s.2)).2), (M.step s.1 (i, s.2)).2)

@[simp] theorem outputs_nil (M : Mealy σ ι ο) (s : σ) : M.outputs s [] = [] := rfl

@[simp] theorem outputs_cons (M : Mealy σ ι ο) (s : σ) (i : ι) (is : List ι) :
    M.outputs s (i :: is) = (M.step s i).2 :: M.outputs (M.step s i).1 is := rfl

/-- **The equation of a loop**: its outputs are those of the machine on the inputs and on the
outputs themselves, one later. -/
theorem outputs_feedback (M : Mealy σ (ι × ο) ο) (s : σ) (o : ο) (is : List ι) :
    M.feedback.outputs (s, o) is = M.outputs s (is.zip (o :: M.feedback.outputs (s, o) is)) := by
  induction is generalizing s o with
  | nil => rfl
  | cons i is ih =>
    rw [outputs_cons, List.zip_cons_cons, outputs_cons]
    exact congrArg _ (ih _ _)

end Mealy

end StLib.Base.Mealy
