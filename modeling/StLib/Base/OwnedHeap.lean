import Mathlib.Data.List.Nodup
import Mathlib.Logic.Function.Basic

/-! # A heap whose cells have one owner each

Cells are numbered in the order they are allocated, and no number is given out twice. A
program owns the cells it can name in `ids`. -/
namespace StLib.Base.OwnedHeap

variable {α : Type*}

/-- What is allocated is what is owned, once. -/
structure Owns (heap : Nat → Option α) (next : Nat) (ids : List Nat) : Prop where
  nodup : ids.Nodup
  allocated : ∀ b, heap b ≠ none ↔ b ∈ ids
  bounded : ∀ b ∈ ids, b < next

/-- What stands in the cells of a list, one after the other. -/
def contents {β : Type*} (heap : Nat → Option (List β)) (ids : List Nat) : List β :=
  ids.flatMap fun b => (heap b).getD []

variable {heap : Nat → Option α} {next b : Nat} {ids ids' : List Nat}

namespace Owns

theorem empty (next : Nat) : Owns (fun _ => none : Nat → Option α) next [] where
  nodup := List.nodup_nil
  allocated b := by simp
  bounded b hb := by cases hb

theorem perm (h : Owns heap next ids) (hp : ids.Perm ids') : Owns heap next ids' where
  nodup := hp.nodup_iff.mp h.nodup
  allocated b := (h.allocated b).trans hp.mem_iff
  bounded b hb := h.bounded b (hp.mem_iff.mpr hb)

/-- What stands in the cells does not matter. -/
theorem congr {heap' : Nat → Option α} (h : Owns heap next ids)
    (hsame : ∀ b, heap' b = none ↔ heap b = none) : Owns heap' next ids where
  nodup := h.nodup
  allocated b := (not_congr (hsame b)).trans (h.allocated b)
  bounded := h.bounded

theorem get (h : Owns heap next ids) (hb : b ∈ ids) : ∃ x, heap b = some x :=
  Option.ne_none_iff_exists'.mp ((h.allocated b).mpr hb)

theorem next_notMem (h : Owns heap next ids) : next ∉ ids := fun hmem =>
  Nat.lt_irrefl next (h.bounded next hmem)

theorem alloc (h : Owns heap next ids) (x : α) :
    Owns (Function.update heap next (some x)) (next + 1) (next :: ids) where
  nodup := List.nodup_cons.mpr ⟨h.next_notMem, h.nodup⟩
  allocated b := by
    by_cases hb : b = next
    · simp [hb]
    · rw [Function.update_of_ne hb, h.allocated, List.mem_cons, or_iff_right hb]
  bounded b hb := by
    rcases List.mem_cons.mp hb with rfl | hmem
    · exact Nat.lt_succ_self b
    · exact Nat.lt_succ_of_lt (h.bounded b hmem)

theorem free (h : Owns heap next (b :: ids)) : Owns (Function.update heap b none) next ids where
  nodup := (List.nodup_cons.mp h.nodup).2
  allocated c := by
    have hb : b ∉ ids := (List.nodup_cons.mp h.nodup).1
    by_cases hc : c = b
    · simp [hc, hb]
    · rw [Function.update_of_ne hc, h.allocated, List.mem_cons, or_iff_right hc]
  bounded c hc := h.bounded c (List.mem_cons_of_mem b hc)

theorem write (h : Owns heap next ids) (hb : b ∈ ids) (x : α) :
    Owns (Function.update heap b (some x)) next ids where
  nodup := h.nodup
  allocated c := by
    by_cases hc : c = b
    · simp [hc, hb]
    · rw [Function.update_of_ne hc, h.allocated]
  bounded := h.bounded

end Owns

/-! ## Contents -/

section Contents

variable {β : Type*} {heap : Nat → Option (List β)} {data : List β}

theorem contents_cons (hb : heap b = some data) :
    contents heap (b :: ids) = data ++ contents heap ids := by
  rw [contents, List.flatMap_cons, hb]
  rfl

theorem contents_append (heap : Nat → Option (List β)) (ids ids' : List Nat) :
    contents heap (ids ++ ids') = contents heap ids ++ contents heap ids' :=
  List.flatMap_append

/-- What happens to another cell does not matter. -/
theorem contents_update (hb : b ∉ ids) (x : Option (List β)) :
    contents (Function.update heap b x) ids = contents heap ids := by
  refine List.flatMap_congr fun c hc => ?_
  have hne : c ≠ b := fun h => hb (h ▸ hc)
  rw [Function.update_of_ne hne]

end Contents

end StLib.Base.OwnedHeap
