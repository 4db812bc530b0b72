import Mathlib

/-! # Sorting by exchanging neighbours

A pass goes through a list once and exchanges neighbours in the wrong order. It carries a
largest element to the end, so as many passes as there are elements sort the list
(`exchangeSort_sorted`). Where no two keys are equal the result does not depend on the
order at the start (`exchangeSort_congr`). -/
namespace StLib.Base.ExchangeSort

variable {α κ : Type*} [LinearOrder κ] (key : α → κ)

/-- The rest of a pass, with the element it carries. -/
def carry (a : α) : List α → List α
  | [] => [a]
  | b :: l => if key b < key a then b :: carry a l else a :: carry b l

def pass : List α → List α
  | [] => []
  | a :: l => carry key a l

/-- As many passes as there are elements. -/
def exchangeSort (l : List α) : List α := (pass key)^[l.length] l

theorem carry_perm : ∀ (l : List α) (a : α), (carry key a l).Perm (a :: l)
  | [], a => .refl _
  | b :: l, a => by
    rw [carry]
    split
    · exact ((carry_perm l a).cons b).trans (.swap a b l)
    · exact (carry_perm l b).cons a

theorem pass_perm : ∀ l : List α, (pass key l).Perm l
  | [] => .refl _
  | a :: l => carry_perm key l a

theorem passes_perm (n : Nat) (l : List α) : ((pass key)^[n] l).Perm l := by
  induction n with
  | zero => exact .refl _
  | succ n ih =>
    rw [Function.iterate_succ_apply']
    exact (pass_perm key _).trans ih

theorem exchangeSort_perm (l : List α) : (exchangeSort key l).Perm l := passes_perm key _ l

/-- A pass ends with a largest element. -/
theorem carry_last : ∀ (l : List α) (a : α),
    ∃ m x, carry key a l = m ++ [x] ∧ ∀ y ∈ m, key y ≤ key x
  | [], a => ⟨[], a, rfl, by simp⟩
  | b :: l, a => by
    rw [carry]
    split
    next hlt =>
      obtain ⟨m, x, hm, hle⟩ := carry_last l a
      have hax : key a ≤ key x := by
        have ha : a ∈ m ++ [x] := hm ▸ (carry_perm key l a).mem_iff.mpr List.mem_cons_self
        rcases List.mem_append.mp ha with ha | ha
        · exact hle a ha
        · rw [List.mem_singleton.mp ha]
      exact ⟨b :: m, x, by rw [hm]; rfl, List.forall_mem_cons.mpr ⟨hlt.le.trans hax, hle⟩⟩
    next hge =>
      obtain ⟨m, x, hm, hle⟩ := carry_last l b
      have hbx : key b ≤ key x := by
        have hb : b ∈ m ++ [x] := hm ▸ (carry_perm key l b).mem_iff.mpr List.mem_cons_self
        rcases List.mem_append.mp hb with hb | hb
        · exact hle b hb
        · rw [List.mem_singleton.mp hb]
      exact ⟨a :: m, x, by rw [hm]; rfl,
        List.forall_mem_cons.mpr ⟨(not_lt.mp hge).trans hbx, hle⟩⟩

/-- A sorted list is left as it is. -/
theorem carry_sorted : ∀ {l : List α} {a : α}, (a :: l).Pairwise (fun x y => key x ≤ key y) →
    carry key a l = a :: l
  | [], _, _ => rfl
  | b :: l, a, h => by
    obtain ⟨ha, hl⟩ := List.pairwise_cons.mp h
    rw [carry, if_neg (not_lt.mpr (ha b List.mem_cons_self)), carry_sorted hl]

/-- What is sorted at the end and above the rest stays there. -/
theorem carry_append {t : List α} (ht : t.Pairwise fun x y => key x ≤ key y) :
    ∀ {l : List α} {a : α}, (∀ x ∈ a :: l, ∀ y ∈ t, key x ≤ key y) →
      carry key a (l ++ t) = carry key a l ++ t
  | [], a, h => carry_sorted key (List.pairwise_cons.mpr ⟨h a List.mem_cons_self, ht⟩)
  | b :: l, a, h => by
    obtain ⟨ha, hl⟩ := List.forall_mem_cons.mp h
    obtain ⟨hb, hl'⟩ := List.forall_mem_cons.mp hl
    rw [List.cons_append, carry, carry]
    split
    · rw [carry_append ht (List.forall_mem_cons.mpr ⟨ha, hl'⟩), List.cons_append]
    · rw [carry_append ht (List.forall_mem_cons.mpr ⟨hb, hl'⟩), List.cons_append]

/-- The last `n` elements, or all, are in their places. -/
def Settled (n : Nat) (l : List α) : Prop :=
  ∃ m t, l = m ++ t ∧ t.Pairwise (fun x y => key x ≤ key y) ∧
    (∀ x ∈ m, ∀ y ∈ t, key x ≤ key y) ∧ (m = [] ∨ t.length = n)

theorem settled_pass {n : Nat} {l : List α} (h : Settled key n l) :
    Settled key (n + 1) (pass key l) := by
  obtain ⟨m, t, rfl, ht, hle, hlen⟩ := h
  cases m with
  | nil =>
    have hsame : pass key t = t := by
      cases t with
      | nil => rfl
      | cons a t => exact carry_sorted key ht
    exact ⟨[], t, hsame, ht, by simp, .inl rfl⟩
  | cons a m =>
    obtain ⟨m', x, hm, hmax⟩ := carry_last key m a
    have hmem : ∀ y ∈ m' ++ [x], y ∈ a :: m := fun y hy =>
      (carry_perm key m a).mem_iff.mp (hm ▸ hy)
    refine ⟨m', x :: t, ?_, ?_, fun y hy z hz => ?_, .inr ?_⟩
    · rw [List.cons_append, pass, carry_append key ht hle, hm, List.append_assoc]
      rfl
    · exact List.pairwise_cons.mpr ⟨hle x (hmem x (by simp)), ht⟩
    · rcases List.mem_cons.mp hz with rfl | hz
      · exact hmax y hy
      · exact hle y (hmem y (by simp [hy])) z hz
    · rw [List.length_cons, hlen.resolve_left (by simp)]

/-- **The passes sort the list.** -/
theorem exchangeSort_sorted (l : List α) :
    (exchangeSort key l).Pairwise fun x y => key x ≤ key y := by
  have hsettled : ∀ n, Settled key n ((pass key)^[n] l) := by
    intro n
    induction n with
    | zero => exact ⟨l, [], by simp, .nil, by simp, .inr rfl⟩
    | succ n ih =>
      rw [Function.iterate_succ_apply']
      exact settled_pass key ih
  obtain ⟨m, t, heq, ht, -, hlen⟩ := hsettled l.length
  have hnil : m = [] := by
    rcases hlen with hnil | hlen
    · exact hnil
    · have := (passes_perm key l.length l).length_eq
      rw [heq, List.length_append, hlen] at this
      exact List.length_eq_zero_iff.mp (by omega)
  rw [exchangeSort, heq, hnil, List.nil_append]
  exact ht

/-- With distinct keys the result is one list for every order of the elements. -/
theorem exchangeSort_congr {l l' : List α} (h : l'.Perm l) (hd : (l.map key).Nodup) :
    exchangeSort key l' = exchangeSort key l := by
  have hperm := (exchangeSort_perm key l').trans (h.trans (exchangeSort_perm key l).symm)
  refine hperm.eq_of_pairwise (fun x y hx hy hxy hyx => ?_) (exchangeSort_sorted key l')
    (exchangeSort_sorted key l)
  have hx' := (exchangeSort_perm key l').trans h |>.mem_iff.mp hx
  have hy' := (exchangeSort_perm key l).mem_iff.mp hy
  exact List.inj_on_of_nodup_map hd hx' hy' (le_antisymm hxy hyx)

end StLib.Base.ExchangeSort
