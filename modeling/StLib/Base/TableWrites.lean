import Mathlib

/-! # Writes to a table

Entries written one after the other, each over the keys it covers. A key has the value of
the entries that cover it where they agree, in whatever order they come, and what it had
before where there are none. -/
namespace StLib.Base.TableWrites

variable {α κ ν : Type*} (covers : α → κ → Bool) (value : α → ν)

/-- Write the value of an entry over its keys. -/
def write (table : κ → ν) (x : α) : κ → ν := fun k => if covers x k then value x else table k

def writeAll (table : κ → ν) (entries : List α) : κ → ν := entries.foldl (write covers value) table

variable {covers value} {table : κ → ν} {entries : List α} {k : κ} {x : α}

@[simp] theorem writeAll_nil : writeAll covers value table [] = table := rfl

@[simp] theorem writeAll_cons :
    writeAll covers value table (x :: entries) = writeAll covers value (write covers value table x) entries := rfl

/-- A key that nothing covers keeps its value. -/
theorem writeAll_of_uncovered (h : ∀ y ∈ entries, covers y k = false) :
    writeAll covers value table entries k = table k := by
  induction entries generalizing table with
  | nil => rfl
  | cons y ys ih =>
    have hy : covers y k = false := h y (by simp)
    rw [writeAll_cons, ih fun z hz => h z (by simp [hz])]
    simp [write, hy]

/-- A key has the value `v` where it has it at first, or is covered, and all that cover it agree. -/
theorem writeAll_of_agree {v : ν} (hstart : table k = v ∨ ∃ y ∈ entries, covers y k = true)
    (hagree : ∀ y ∈ entries, covers y k = true → value y = v) :
    writeAll covers value table entries k = v := by
  induction entries generalizing table with
  | nil => simpa using hstart
  | cons y ys ih =>
    rw [writeAll_cons]
    refine ih ?_ fun z hz => hagree z (by simp [hz])
    by_cases hy : covers y k = true
    · left
      simp [write, hy, hagree y]
    · simpa [write, hy] using hstart

/-- A key on which the entries that cover it agree has their value. -/
theorem writeAll_of_covered (hx : x ∈ entries) (hcovers : covers x k = true)
    (hagree : ∀ y ∈ entries, covers y k = true → value y = value x) :
    writeAll covers value table entries k = value x :=
  writeAll_of_agree (.inr ⟨x, hx, hcovers⟩) hagree

end StLib.Base.TableWrites
