import Mathlib

/-! # A ring of the last elements

A ring writes each element at an index that wraps around, and counts the elements up to its
capacity. From the oldest on it holds the last elements that were pushed
(`Holds.toList`). -/
namespace StLib.Base.RingBuffer

variable {α : Type*}

structure Buffer (α : Type*) where
  slots : Nat → α
  next : Nat := 0
  count : Nat := 0

def Buffer.push (capacity : Nat) (a : α) (r : Buffer α) : Buffer α where
  slots := Function.update r.slots r.next a
  next := (r.next + 1) % capacity
  count := if r.count < capacity then r.count + 1 else r.count

def Buffer.oldest (capacity : Nat) (r : Buffer α) : Nat := if r.count = capacity then r.next else 0

/-- The elements, oldest first. -/
def Buffer.toList (capacity : Nat) (r : Buffer α) : List α :=
  (List.range r.count).map fun i => r.slots ((r.oldest capacity + i) % capacity)

/-- The ring after the elements `l` are pushed. -/
structure Holds (capacity : Nat) (r : Buffer α) (l : List α) : Prop where
  count : r.count = min l.length capacity
  next : r.next = l.length % capacity
  slots : ∀ k (hk : k < l.length), l.length ≤ k + capacity → r.slots (k % capacity) = l[k]

variable {capacity : Nat} {r : Buffer α} {l : List α}

theorem holds_nil (slots : Nat → α) : Holds capacity { slots } [] where
  count := (Nat.zero_min capacity).symm
  next := (Nat.zero_mod capacity).symm
  slots k hk := absurd hk (Nat.not_lt_zero k)

/-- Two indices less than the capacity apart are in different slots. -/
theorem slot_ne {k n : Nat} (hlt : k < n) (hclose : n < k + capacity) :
    k % capacity ≠ n % capacity := by
  intro h
  have hdvd : capacity ∣ n - k := (Nat.modEq_iff_dvd' hlt.le).mp h
  have hle := Nat.le_of_dvd (by omega) hdvd
  omega

theorem Holds.push (h : Holds capacity r l) (a : α) :
    Holds capacity (r.push capacity a) (l ++ [a]) where
  count := by
    rw [Buffer.push, h.count, List.length_append, List.length_singleton]
    dsimp only
    split <;> omega
  next := by
    rw [Buffer.push, h.next, List.length_append, List.length_singleton]
    exact Nat.mod_add_mod ..
  slots k hk hclose := by
    rw [List.length_append, List.length_singleton] at hk hclose
    rw [Buffer.push, h.next]
    dsimp only
    rcases Nat.lt_succ_iff_lt_or_eq.mp hk with hlt | rfl
    · rw [Function.update_of_ne (slot_ne hlt (by omega)), List.getElem_append_left hlt]
      exact h.slots k hlt (by omega)
    · rw [Function.update_self, List.getElem_concat_length rfl]

/-- The slot of the `i`-th oldest element. -/
theorem Holds.oldest (h : Holds capacity r l) (i : Nat) :
    (r.oldest capacity + i) % capacity = (l.length - r.count + i) % capacity := by
  have hcount := h.count
  rw [Buffer.oldest, h.next]
  split
  next hfull =>
    have hle : capacity ≤ l.length := by omega
    rw [hfull, Nat.mod_add_mod]
    calc (l.length + i) % capacity = (l.length - capacity + i + capacity) % capacity := by
          congr 1
          omega
      _ = (l.length - capacity + i) % capacity := Nat.add_mod_right _ _
  next hfree =>
    have hall : l.length - r.count = 0 := by omega
    rw [hall]

/-- **The ring holds the last elements**, as many as its capacity, oldest first. -/
theorem Holds.toList (h : Holds capacity r l) :
    r.toList capacity = l.drop (l.length - capacity) := by
  have hcount := h.count
  refine List.ext_getElem ?_ fun i hi _ => ?_
  · rw [Buffer.toList, List.length_map, List.length_range, List.length_drop]
    omega
  · rw [Buffer.toList, List.length_map, List.length_range] at hi
    simp only [Buffer.toList, List.getElem_map, List.getElem_range, List.getElem_drop]
    rw [h.oldest i, h.slots (l.length - r.count + i) (by omega) (by omega)]
    congr 1
    omega

end StLib.Base.RingBuffer
