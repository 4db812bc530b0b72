import Mathlib.Data.List.DropRight
import StLib.Base.RingBuffer

/-! # Windows of a circular storage

A list stands in a storage from an index on, and goes on at its beginning where the storage
ends. -/
namespace StLib.Base.CircularWindow

variable {α : Type*} {storage : List α} {start : Nat} {l : List α}

structure Window (storage : List α) (start : Nat) (l : List α) : Prop where
  fits : l.length ≤ storage.length
  slots : ∀ k, k < l.length → storage[(start + k) % storage.length]? = l[k]?

namespace Window

theorem nil (storage : List α) (start : Nat) : Window storage start [] where
  fits := Nat.zero_le _
  slots k hk := absurd hk (Nat.not_lt_zero k)

theorem mod (h : Window storage start l) : Window storage (start % storage.length) l where
  fits := h.fits
  slots k hk := by rw [Nat.mod_add_mod, h.slots k hk]

/-- Two places of a window are different slots. -/
theorem slot_ne {n k m : Nat} (hlt : k < m) (hclose : m < k + n) : (start + k) % n ≠ (start + m) % n :=
  RingBuffer.slot_ne (Nat.add_lt_add_left hlt start) (by omega)

/-- Writing after the end makes the list longer. -/
theorem snoc (h : Window storage start l) (hfree : l.length < storage.length) (a : α) :
    Window (storage.set ((start + l.length) % storage.length) a) start (l ++ [a]) where
  fits := by
    rw [List.length_set, List.length_append, List.length_singleton]
    omega
  slots k hk := by
    rw [List.length_append, List.length_singleton] at hk
    rw [List.length_set]
    rcases Nat.lt_succ_iff_lt_or_eq.mp hk with hlt | rfl
    · rw [List.getElem?_set_ne (slot_ne hlt (by omega)).symm, h.slots k hlt,
        List.getElem?_append_left hlt]
    · have hslot : (start + l.length) % storage.length < storage.length :=
        Nat.mod_lt _ (by omega)
      rw [List.getElem?_set_self hslot, List.getElem?_concat_length]

theorem tail {b : α} (h : Window storage start (b :: l)) : Window storage (start + 1) l where
  fits := Nat.le_of_succ_le h.fits
  slots k hk := by
    have hnext := h.slots (k + 1) (Nat.succ_lt_succ hk)
    rwa [List.getElem?_cons_succ, ← Nat.add_assoc, Nat.add_right_comm] at hnext

/-- The oldest element makes room for a new one. -/
theorem rotate {b : α} (h : Window storage start (b :: l)) (a : α) :
    Window (storage.set ((start + (b :: l).length) % storage.length) a) (start + 1) (l ++ [a]) := by
  have hfits := h.fits
  rw [List.length_cons] at hfits
  have hmoved := h.tail.snoc hfits a
  have hend : start + (b :: l).length = start + 1 + l.length := by
    rw [List.length_cons]
    omega
  rwa [hend]

end Window

/-! ## The last elements -/

theorem length_rtake (n : Nat) (l : List α) : (l.rtake n).length = min l.length n := by
  rw [List.rtake, List.length_drop]
  omega

theorem rtake_snoc {n : Nat} (hlt : l.length < n) (a : α) : (l ++ [a]).rtake n = l.rtake n ++ [a] := by
  have hboth : l.length + 1 - n = 0 ∧ l.length - n = 0 := by omega
  rw [List.rtake, List.rtake, List.length_append, List.length_singleton, hboth.1, hboth.2,
    List.drop_zero, List.drop_zero]

/-- The last elements, from the newest on. -/
theorem reverse_rtake {n i : Nat} (hi : i < n) (hl : i < l.length) :
    (l.rtake n).reverse[i]? = l[l.length - 1 - i]? := by
  rw [List.rtake_eq_reverse_take_reverse, List.reverse_reverse, List.getElem?_take_of_lt hi,
    List.getElem?_reverse hl]

/-- As many elements as there may be lose the oldest one. -/
theorem rtake_slide {n : Nat} (hpos : 0 < n) (hle : n ≤ l.length) :
    ∃ b rest, l.rtake n = b :: rest ∧ ∀ a, (l ++ [a]).rtake n = rest ++ [a] := by
  obtain ⟨m, rfl⟩ := Nat.exists_eq_add_one_of_ne_zero hpos.ne'
  have hlength := length_rtake (m + 1) l
  rw [Nat.min_eq_right hle] at hlength
  have htail : (l.rtake (m + 1)).tail = l.rtake m := by
    rw [List.rtake, List.rtake, List.tail_drop]
    congr 1
    omega
  cases hl : l.rtake (m + 1) with
  | nil =>
    rw [hl] at hlength
    exact absurd hlength (Nat.succ_ne_zero m).symm
  | cons b rest =>
    rw [hl, List.tail_cons] at htail
    exact ⟨b, rest, rfl, fun a => by rw [List.rtake_concat_succ, htail]⟩

end StLib.Base.CircularWindow
