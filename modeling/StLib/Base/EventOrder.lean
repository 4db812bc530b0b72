import Mathlib.Tactic.Common

/-! # What comes first

An event of a list that has no event of some kind before it. -/
namespace StLib.Base.EventOrder

variable {α : Type*} {P : α → Prop} {a : α} {l m : List α}

/-- The event comes before all those with the property. -/
def Before (a : α) (P : α → Prop) (l : List α) : Prop :=
  ∃ before after, l = before ++ a :: after ∧ ∀ x ∈ before, ¬ P x

theorem Before.mem (h : Before a P l) : a ∈ l := by
  obtain ⟨before, after, rfl, -⟩ := h
  exact List.mem_append_right _ List.mem_cons_self

theorem before_head (a : α) (P : α → Prop) (l : List α) : Before a P (a :: l) :=
  ⟨[], l, rfl, fun _ hx => absurd hx List.not_mem_nil⟩

theorem Before.append_right (h : Before a P l) (m : List α) : Before a P (l ++ m) := by
  obtain ⟨before, after, rfl, hbefore⟩ := h
  exact ⟨before, after ++ m, by rw [List.append_assoc, List.cons_append], hbefore⟩

theorem Before.append_left (h : Before a P l) (hquiet : ∀ x ∈ m, ¬ P x) : Before a P (m ++ l) := by
  obtain ⟨before, after, rfl, hbefore⟩ := h
  refine ⟨m ++ before, after, by rw [List.append_assoc], fun x hx => ?_⟩
  rcases List.mem_append.mp hx with hm | hb
  · exact hquiet x hm
  · exact hbefore x hb

/-- Where an event with the property comes, the other has been. -/
theorem Before.mem_of_split (h : Before a P l) (ha : ¬ P a) {before after : List α} {x : α}
    (hl : l = before ++ x :: after) (hx : P x) : a ∈ before := by
  obtain ⟨first, last, hfirst, hquiet⟩ := h
  rw [hl] at hfirst
  rcases List.append_eq_append_iff.mp hfirst with ⟨more, hmore, htail⟩ | ⟨more, hmore, htail⟩
  · cases more with
    | nil =>
      obtain ⟨rfl, -⟩ := List.cons.inj htail
      exact absurd hx ha
    | cons y more =>
      obtain ⟨rfl, -⟩ := List.cons.inj htail
      refine absurd hx (hquiet x ?_)
      rw [hmore]
      exact List.mem_append_right _ List.mem_cons_self
  · cases more with
    | nil =>
      obtain ⟨rfl, -⟩ := List.cons.inj htail
      exact absurd hx ha
    | cons y more =>
      obtain ⟨rfl, -⟩ := List.cons.inj htail
      rw [hmore]
      exact List.mem_append_right _ List.mem_cons_self

end StLib.Base.EventOrder
