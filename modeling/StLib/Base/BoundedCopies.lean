import Mathlib.Data.List.Basic

/-! # Copies between buffers

`memcpy` between two buffers of known lengths. A copy that leaves one of them has no
result. -/
namespace StLib.Base.BoundedCopies

variable {α : Type*}

def store (buffer : List α) (i : Nat) (a : α) : Option (List α) :=
  if i < buffer.length then some (buffer.set i a) else none

/-- `memcpy(dst + dstAt, src + srcAt, n)`. -/
def memcpy (dst : List α) (dstAt : Nat) (src : List α) (srcAt n : Nat) : Option (List α) :=
  if dstAt + n ≤ dst.length ∧ srcAt + n ≤ src.length then
    some (dst.take dstAt ++ (src.drop srcAt).take n ++ dst.drop (dstAt + n))
  else none

section

variable {a b c old x y dst src r : List α} {dstAt srcAt n i : Nat}

theorem store_append (z w : α) (ha : i = a.length) : store (a ++ z :: c) i w = some (a ++ w :: c) := by
  subst ha
  have hfits : a.length < (a ++ z :: c).length := by
    rw [List.length_append, List.length_cons]
    omega
  rw [store, if_pos hfits, List.set_append_right _ _ (Nat.le_refl _), Nat.sub_self, List.set_cons_zero]

theorem store_length {z : α} (h : store dst i z = some r) : r.length = dst.length := by
  rw [store] at h
  split at h
  · obtain rfl := Option.some.inj h
    exact List.length_set
  · cases h

/-- A whole block takes the place of another. -/
theorem memcpy_append (hdst : dstAt = a.length) (hsrc : srcAt = x.length) (hold : old.length = n)
    (hb : b.length = n) : memcpy (a ++ old ++ c) dstAt (x ++ b ++ y) srcAt n = some (a ++ b ++ c) := by
  subst hdst hsrc hold
  have hfits : a.length + old.length ≤ (a ++ old ++ c).length ∧
      x.length + old.length ≤ (x ++ b ++ y).length := by
    simp only [List.length_append]
    omega
  have htake : (a ++ old ++ c).take a.length = a := by
    rw [List.append_assoc]
    exact List.take_left' rfl
  have hblock : ((x ++ b ++ y).drop x.length).take old.length = b := by
    rw [List.append_assoc, List.drop_left' rfl, List.take_left' hb]
  have hdrop : (a ++ old ++ c).drop (a.length + old.length) = c := List.drop_left' List.length_append
  rw [memcpy, if_pos hfits, htake, hblock, hdrop]

theorem memcpy_whole (hdst : dst.length = n) (hsrc : src.length = n) : memcpy dst 0 src 0 n = some src := by
  have hcopy := memcpy_append (a := []) (c := []) (x := []) (y := []) rfl rfl hdst hsrc
  rwa [List.nil_append, List.nil_append, List.append_nil, List.append_nil] at hcopy

theorem memcpy_bounds (h : memcpy dst dstAt src srcAt n = some r) :
    dstAt + n ≤ dst.length ∧ srcAt + n ≤ src.length := by
  rw [memcpy] at h
  split at h
  · assumption
  · cases h

/-- What lies behind the copy stays. -/
theorem memcpy_beyond (h : memcpy dst dstAt src srcAt n = some r) (hi : dstAt + n ≤ i) :
    r[i]? = dst[i]? := by
  obtain ⟨hdst, hsrc⟩ := memcpy_bounds h
  rw [memcpy, if_pos ⟨hdst, hsrc⟩] at h
  obtain rfl := Option.some.inj h
  have hlength : (dst.take dstAt ++ (src.drop srcAt).take n).length = dstAt + n := by
    rw [List.length_append, List.length_take, List.length_take, List.length_drop]
    omega
  rw [List.getElem?_append_right (by omega), hlength, List.getElem?_drop, Nat.add_sub_cancel' hi]

end

end StLib.Base.BoundedCopies
