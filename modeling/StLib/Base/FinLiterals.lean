import Mathlib

/-! # Literals of bounded numbers

A literal of `Fin n` rests on `n` not being zero. For the sizes of this development that is a
constant of its own. -/
namespace StLib.Base.FinLiterals

instance neZero_two : NeZero 2 := ⟨by decide⟩

instance neZero_three : NeZero 3 := ⟨by decide⟩

instance neZero_four : NeZero 4 := ⟨by decide⟩

instance neZero_eight : NeZero 8 := ⟨by decide⟩

instance neZero_sixteen : NeZero 16 := ⟨by decide⟩

instance neZero_twenty : NeZero 20 := ⟨by decide⟩

end StLib.Base.FinLiterals
