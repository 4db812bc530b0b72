import Mathlib.Data.List.Basic
import Mathlib.Logic.Function.Basic

/-! # Ranks among the elements of one key

The elements of a list are numbered in order, each key for itself. -/
namespace StLib.Base.OccurrenceRank

variable {α κ : Type*} [DecidableEq κ] (key : α → κ)

/-- The elements of a key. -/
def group (xs : List α) (k : κ) : List α := xs.filter fun a => key a = k

/-- How many elements of a key are before an index. -/
def rank (xs : List α) (i : Nat) (k : κ) : Nat := (group key (xs.take i) k).length

/-- One counter for each key. -/
def number (counts : κ → Nat) : List α → List Nat × (κ → Nat)
  | [] => ([], counts)
  | a :: rest =>
    let numbered := number (Function.update counts (key a) (counts (key a) + 1)) rest
    (counts (key a) :: numbered.1, numbered.2)

variable {key} {xs : List α} {a b : α} {i j : Nat} {k : κ}

theorem group_append (xs ys : List α) (k : κ) : group key (xs ++ ys) k = group key xs k ++ group key ys k :=
  List.filter_append ..

theorem group_cons_self (a : α) (xs : List α) : group key (a :: xs) (key a) = a :: group key xs (key a) :=
  List.filter_cons_of_pos (decide_eq_true rfl)

theorem group_cons_ne (a : α) (xs : List α) (h : key a ≠ k) : group key (a :: xs) k = group key xs k :=
  List.filter_cons_of_neg (by simpa using h)

theorem length_group_cons (a : α) (xs : List α) (k : κ) :
    (group key (a :: xs) k).length = (if key a = k then 1 else 0) + (group key xs k).length := by
  split
  · next hkey => rw [← hkey, group_cons_self, List.length_cons, Nat.add_comm]
  · next hkey => rw [group_cons_ne a xs hkey, Nat.zero_add]

theorem group_split (h : xs[i]? = some a) : group key xs (key a) =
    group key (xs.take i) (key a) ++ a :: group key (xs.drop (i + 1)) (key a) := by
  obtain ⟨hi, ha⟩ := List.getElem?_eq_some_iff.mp h
  have hsplit : xs = xs.take i ++ a :: xs.drop (i + 1) := by
    rw [← ha, List.getElem_cons_drop, List.take_append_drop]
  rw [← group_cons_self, ← group_append, ← hsplit]

/-- An element is found in its group at its rank. -/
theorem group_getElem?_rank (h : xs[i]? = some a) : (group key xs (key a))[rank key xs i (key a)]? = some a := by
  rw [group_split h, rank, List.getElem?_append_right (Nat.le_refl _), Nat.sub_self, List.getElem?_cons_zero]

theorem rank_lt_length (h : xs[i]? = some a) : rank key xs i (key a) < (group key xs (key a)).length :=
  (List.getElem?_eq_some_iff.mp (group_getElem?_rank h)).1

theorem rank_lt_rank (h : xs[i]? = some a) (hij : i < j) : rank key xs i (key a) < rank key xs j (key a) := by
  have htake : (xs.take j)[i]? = some a := by rwa [List.getElem?_take_of_lt hij]
  have hlt : rank key (xs.take j) i (key a) < (group key (xs.take j) (key a)).length := rank_lt_length htake
  rwa [rank, List.take_take, Nat.min_eq_left (Nat.le_of_lt hij)] at hlt

/-- Two elements of one key have two ranks. -/
theorem rank_injective (hi : xs[i]? = some a) (hj : xs[j]? = some b) (hkey : key a = key b)
    (h : rank key xs i (key a) = rank key xs j (key b)) : i = j := by
  rcases Nat.lt_trichotomy i j with hlt | heq | hgt
  · have hrank : rank key xs i (key a) < rank key xs j (key a) := rank_lt_rank hi hlt
    rw [h, hkey] at hrank
    exact absurd hrank (Nat.lt_irrefl _)
  · exact heq
  · have hrank : rank key xs j (key b) < rank key xs i (key b) := rank_lt_rank hj hgt
    rw [← h, ← hkey] at hrank
    exact absurd hrank (Nat.lt_irrefl _)

/-- The counters number the elements by their ranks. -/
theorem number_getElem? (counts : κ → Nat) (xs : List α) (i : Nat) :
    (number key counts xs).1[i]? = xs[i]?.map fun a => counts (key a) + rank key xs i (key a) := by
  induction xs generalizing counts i with
  | nil => rfl
  | cons b xs ih =>
    cases i with
    | zero => rfl
    | succ i =>
      rw [number, List.getElem?_cons_succ, List.getElem?_cons_succ, ih]
      congr 1
      funext a
      rw [rank, rank, List.take_succ_cons, length_group_cons]
      split
      · next hkey => rw [hkey, Function.update_self, Nat.add_assoc]
      · next hkey => rw [Function.update_of_ne (Ne.symm hkey), Nat.zero_add]

theorem number_counts (counts : κ → Nat) (xs : List α) (k : κ) :
    (number key counts xs).2 k = counts k + (group key xs k).length := by
  induction xs generalizing counts with
  | nil => rfl
  | cons b xs ih =>
    rw [number, ih, length_group_cons]
    split
    · next hkey =>
      rw [hkey, Function.update_self, Nat.add_assoc]
    · next hkey =>
      rw [Function.update_of_ne (Ne.symm hkey), Nat.zero_add]

end StLib.Base.OccurrenceRank
