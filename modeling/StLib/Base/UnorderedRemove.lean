import Mathlib.Data.List.Perm.Basic
import Mathlib.Data.List.Range
import Mathlib.Logic.Function.Basic

/-!
# Unordered removal

An array with a counter as a work list: an entry is removed by moving the last one to its
place. A sweep over the list looks at each entry once, the moved ones included.
-/

namespace StLib.Base.UnorderedRemove

variable {α : Type}

/-- The entries `r[i]`, …, `r[i + k - 1]`. -/
def window (r : Nat → α) (i k : Nat) : List α := (List.range' i k).map r

theorem window_succ (r : Nat → α) (i k : Nat) : window r i (k + 1) = r i :: window r (i + 1) k :=
  rfl

@[simp] theorem window_zero (r : Nat → α) (i : Nat) : window r i 0 = [] := rfl

@[simp] theorem length_window (r : Nat → α) (i k : Nat) : (window r i k).length = k := by
  simp [window]

theorem window_congr {r r' : Nat → α} {i k : Nat} (h : ∀ j, i ≤ j → j < i + k → r' j = r j) :
    window r' i k = window r i k := by
  refine List.map_congr_left fun j hj => ?_
  obtain ⟨h1, h2⟩ := List.mem_range'_1.mp hj
  exact h j h1 h2

/-- The last entry moved to the front. -/
def lastFirst (l : List α) : List α :=
  match l.getLast? with
  | none => []
  | some x => x :: l.dropLast

@[simp] theorem lastFirst_nil : lastFirst ([] : List α) = [] := rfl

@[simp] theorem lastFirst_concat (l : List α) (x : α) : lastFirst (l ++ [x]) = x :: l := by
  simp [lastFirst]

theorem lastFirst_perm (l : List α) : (lastFirst l).Perm l := by
  rcases List.eq_nil_or_concat l with rfl | ⟨l, x, rfl⟩
  · exact .refl _
  · rw [List.concat_eq_append, lastFirst_concat]
    exact (List.perm_append_singleton ..).symm

theorem length_lastFirst (l : List α) : (lastFirst l).length = l.length :=
  (lastFirst_perm l).length_eq

/-- Removing `r[i]` from a list of `i + k + 1` entries. -/
theorem window_remove (r : Nat → α) (i k : Nat) :
    window (Function.update r i (r (i + k))) i k = lastFirst (window r (i + 1) k) := by
  cases k with
  | zero => rfl
  | succ k =>
    have hmid : window (Function.update r i (r (i + (k + 1)))) (i + 1) k = window r (i + 1) k :=
      window_congr fun j hj _ => Function.update_of_ne (by omega) ..
    have hlast : window r (i + 1) (k + 1) = window r (i + 1) k ++ [r (i + (k + 1))] := by
      rw [window, window, List.range'_1_concat, List.map_append, List.map_singleton]
      congr 3
      omega
    rw [window_succ, hmid, Function.update_self, hlast, lastFirst_concat]

/-- What a sweep removes, in order, and what it leaves. -/
def sweep (p : α → Bool) : List α → List α × List α
  | [] => ([], [])
  | x :: xs =>
    if p x then
      (x :: (sweep p (lastFirst xs)).1, (sweep p (lastFirst xs)).2)
    else
      ((sweep p xs).1, x :: (sweep p xs).2)
termination_by l => l.length
decreasing_by
  · rw [length_lastFirst]
    exact Nat.lt_succ_self _
  · exact Nat.lt_succ_self _

theorem sweep_nil (p : α → Bool) : sweep p [] = ([], []) := by
  rw [sweep]

theorem sweep_cons_pos {p : α → Bool} {x : α} (h : p x = true) (xs : List α) :
    sweep p (x :: xs) = (x :: (sweep p (lastFirst xs)).1, (sweep p (lastFirst xs)).2) := by
  rw [sweep, if_pos h]

theorem sweep_cons_neg {p : α → Bool} {x : α} (h : p x = false) (xs : List α) :
    sweep p (x :: xs) = ((sweep p xs).1, x :: (sweep p xs).2) := by
  rw [sweep, if_neg (by rw [h]; nofun)]

/-- A sweep sorts the entries into those with `p` and those without. -/
theorem sweep_perm (p : α → Bool) (l : List α) :
    (sweep p l).1.Perm (l.filter p) ∧ (sweep p l).2.Perm (l.filter fun x => !p x) := by
  induction l using sweep.induct p with
  | case1 => exact ⟨by rw [sweep_nil]; exact .refl _, by rw [sweep_nil]; exact .refl _⟩
  | case2 x xs hp ih =>
    rw [sweep_cons_pos hp, List.filter_cons_of_pos hp, List.filter_cons_of_neg (by simp [hp])]
    exact ⟨(ih.1.trans ((lastFirst_perm xs).filter _)).cons x,
      ih.2.trans ((lastFirst_perm xs).filter _)⟩
  | case3 x xs hp ih =>
    have hp' : p x = false := by simpa using hp
    rw [sweep_cons_neg hp', List.filter_cons_of_neg hp, List.filter_cons_of_pos (by simp [hp'])]
    exact ⟨ih.1, ih.2.cons x⟩

end StLib.Base.UnorderedRemove
