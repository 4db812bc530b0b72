import Mathlib

/-! # Binary search and sorted insertion

`search` is the usual halving loop for the first index at which a test turns
false. On a list sorted by a key, inserting at the index it finds keeps the list
sorted. Where the test turns true instead, the loop only asks the middle
(`search_of_mono`). -/
namespace StLib.Base.SortedQueue

/-- The halving loop on `[left, right)`: go right while `after` holds at the
middle. The first argument bounds the number of rounds. -/
def search (after : Nat → Bool) : Nat → Nat → Nat → Nat
  | 0, left, _ => left
  | rounds + 1, left, right =>
    if left < right then
      let mid := left + (right - left) / 2
      if after mid then search after rounds (mid + 1) right else search after rounds left mid
    else left

theorem search_bounds (after : Nat → Bool) :
    ∀ rounds left right, left ≤ right →
      left ≤ search after rounds left right ∧ search after rounds left right ≤ right
  | 0, _, _, h => ⟨Nat.le_refl _, h⟩
  | rounds + 1, left, right, h => by
    rw [search]
    split
    · dsimp only
      split
      · have := search_bounds after rounds (left + (right - left) / 2 + 1) right (by omega)
        omega
      · have := search_bounds after rounds left (left + (right - left) / 2) (by omega)
        omega
    · exact ⟨Nat.le_refl _, h⟩

/-- The loop tests only inside its interval. -/
theorem search_congr {after after' : Nat → Bool} :
    ∀ rounds left right, (∀ i, left ≤ i → i < right → after' i = after i) →
      search after' rounds left right = search after rounds left right
  | 0, _, _, _ => rfl
  | rounds + 1, left, right, h => by
    rw [search, search]
    split
    next hlt =>
      have hmid := h (left + (right - left) / 2) (by omega) (by omega)
      simp only [hmid]
      split
      · exact search_congr rounds _ _ fun i h1 h2 => h i (by omega) h2
      · exact search_congr rounds _ _ fun i h1 h2 => h i h1 (by omega)
    next => rfl

/-- With rounds enough to halve the interval away and a test that never turns
true again, the loop finds where the test turns false. -/
theorem search_spec (after : Nat → Bool) :
    ∀ rounds left right, left ≤ right → right - left < 2 ^ rounds →
      (∀ i j, left ≤ i → i ≤ j → j < right → after j = true → after i = true) →
      (∀ i, left ≤ i → i < search after rounds left right → after i = true) ∧
      (∀ i, search after rounds left right ≤ i → i < right → after i = false)
  | 0, left, right, h, hr, _ => by
    refine ⟨fun i h1 h2 => ?_, fun i h1 h2 => ?_⟩
    · rw [search] at h2; omega
    · rw [search] at h1; simp at hr; omega
  | rounds + 1, left, right, h, hr, mono => by
    rw [Nat.pow_succ] at hr
    rw [search]
    split
    next hlt =>
      dsimp only
      split
      next hmid =>
        obtain ⟨ih1, ih2⟩ := search_spec after rounds (left + (right - left) / 2 + 1) right
          (by omega) (by omega) (fun i j h1 h2 h3 => mono i j (by omega) h2 h3)
        refine ⟨fun i h1 h2 => ?_, ih2⟩
        by_cases hi : i ≤ left + (right - left) / 2
        · exact mono i _ h1 hi (by omega) hmid
        · exact ih1 i (by omega) h2
      next hmid =>
        obtain ⟨ih1, ih2⟩ := search_spec after rounds left (left + (right - left) / 2)
          (by omega) (by omega) (fun i j h1 h2 h3 => mono i j h1 h2 (by omega))
        refine ⟨ih1, fun i h1 h2 => ?_⟩
        by_cases hi : i < left + (right - left) / 2
        · exact ih2 i h1 hi
        · -- were the test true at `i`, it would be true at the middle before it
          have hle := (search_bounds after rounds left (left + (right - left) / 2) (by omega)).2
          cases hai : after i with
          | false => rfl
          | true => exact absurd (mono _ i (by omega) (by omega) h2 hai) hmid
    next hge => exact ⟨fun i h1 h2 => absurd h2 (by omega), fun i h1 h2 => absurd h2 (by omega)⟩

/-- With a test that never turns false again, the loop only asks the middle. -/
theorem search_of_mono (after : Nat → Bool) (rounds : Nat) {right : Nat} (h0 : 0 < right)
    (hr : right < 2 ^ (rounds + 1))
    (mono : ∀ i j, i ≤ j → j < right → after i = true → after j = true) :
    search after (rounds + 1) 0 right = if after (right / 2) then right else 0 := by
  rw [Nat.pow_succ] at hr
  rw [search, if_pos h0]
  simp only [Nat.sub_zero, Nat.zero_add]
  split
  next hmid =>
    -- the rest of the interval passes
    have hbound := (search_bounds after rounds (right / 2 + 1) right (by omega)).2
    have hspec := (search_spec after rounds (right / 2 + 1) right (by omega) (by omega)
      fun i j h1 h2 h3 _ => mono (right / 2) i (by omega) (by omega) hmid).2
    rcases Nat.lt_or_ge (search after rounds (right / 2 + 1) right) right with hlt | hge
    · have hfalse := hspec _ (Nat.le_refl _) hlt
      have hbelow := (search_bounds after rounds (right / 2 + 1) right (by omega)).1
      rw [mono (right / 2) _ (by omega) hlt hmid] at hfalse
      cases hfalse
    · omega
  next hmid =>
    have hfail : ∀ i, i < right / 2 → after i = false := fun i hi => by
      cases hai : after i with
      | false => rfl
      | true => exact absurd (mono i (right / 2) (by omega) (by omega) hai) hmid
    have hspec := (search_spec after rounds 0 (right / 2) (by omega) (by omega)
      fun i j _ _ h3 h => by rw [hfail j h3] at h; cases h).1
    have hbound := (search_bounds after rounds 0 (right / 2) (by omega)).2
    rcases Nat.eq_zero_or_pos (search after rounds 0 (right / 2)) with h | hpos
    · exact h
    · have htrue := hspec 0 (Nat.le_refl _) hpos
      rw [hfail 0 (by omega)] at htrue
      cases htrue

/-! ## Lists -/

theorem insertIdx_eq_append {α : Type*} (x : α) :
    ∀ (l : List α) (n : Nat), n ≤ l.length → l.insertIdx n x = l.take n ++ x :: l.drop n
  | l, 0, _ => by simp
  | [], n + 1, h => by simp at h
  | a :: l, n + 1, h => by
    rw [List.insertIdx_succ_cons, insertIdx_eq_append x l n (by simpa using h)]
    rfl

/-- A filter that drops `x` does not see it inserted. -/
theorem filter_insertIdx {α : Type*} {p : α → Bool} {x : α} {l : List α} {n : Nat}
    (hn : n ≤ l.length) (hx : p x = false) : (l.insertIdx n x).filter p = l.filter p := by
  rw [insertIdx_eq_append x l n hn, List.filter_append, List.filter_cons_of_neg (by simp [hx]),
    ← List.filter_append, List.take_append_drop]

/-- Inserting where every earlier element is below and every later one above
keeps a list pairwise ordered. -/
theorem pairwise_insertIdx {α : Type*} {R : α → α → Prop} {l : List α} {n : Nat} {x : α}
    (h : l.Pairwise R) (hn : n ≤ l.length) (before : ∀ a ∈ l.take n, R a x)
    (after : ∀ a ∈ l.drop n, R x a) : (l.insertIdx n x).Pairwise R := by
  rw [insertIdx_eq_append x l n hn, List.pairwise_append, List.pairwise_cons]
  have hsplit : (l.take n ++ l.drop n).Pairwise R := by rwa [List.take_append_drop]
  obtain ⟨ht, hd, hcross⟩ := List.pairwise_append.mp hsplit
  refine ⟨ht, ⟨after, hd⟩, fun a ha b hb => ?_⟩
  rcases List.mem_cons.mp hb with rfl | hb
  · exact before a ha
  · exact hcross a ha b hb

/-- Insert `x` after the last element that passes the test. -/
def insertAfter {α : Type*} (after : α → Bool) (x : α) (l : List α) : List α :=
  l.rdropWhile (fun a => !after a) ++ x :: l.rtakeWhile (fun a => !after a)

theorem rdropWhile_append {α : Type*} {p : α → Bool} (u : List α) {v : List α}
    (hv : ∀ a ∈ v, p a = true) : (u ++ v).rdropWhile p = u.rdropWhile p := by
  induction v using List.reverseRecOn with
  | nil => rw [List.append_nil]
  | append_singleton v a ih =>
    rw [← List.append_assoc, List.rdropWhile_concat_pos p _ _ (hv a (by simp))]
    exact ih fun b hb => hv b (by simp [hb])

/-- A list cut after its last element that passes. -/
theorem insertAfter_append {α : Type*} {after : α → Bool} {x : α} {u v : List α}
    (hu : ∀ h : u ≠ [], after (u.getLast h) = true) (hv : ∀ a ∈ v, after a = false) :
    insertAfter after x (u ++ v) = u ++ x :: v := by
  have hdrop : (u ++ v).rdropWhile (fun a => !after a) = u := by
    rw [rdropWhile_append u fun a ha => by rw [hv a ha]; rfl]
    exact List.rdropWhile_eq_self_iff.mpr fun h => by simp [hu h]
  have htake := List.rdropWhile_append_rtakeWhile (p := fun a => !after a) (l := u ++ v)
  rw [hdrop] at htake
  rw [insertAfter, hdrop, List.append_cancel_left htake]

theorem nodup_insertIdx {α : Type*} {l : List α} {n : Nat} {x : α} (h : l.Nodup)
    (hn : n ≤ l.length) (hx : x ∉ l) : (l.insertIdx n x).Nodup := by
  rw [(List.perm_insertIdx x l hn).nodup_iff, List.nodup_cons]
  exact ⟨hx, h⟩

theorem eraseIdx_eq_erase {α : Type*} [BEq α] [LawfulBEq α] {l : List α} {n : Nat}
    (hn : n < l.length) (h : l.Nodup) : l.eraseIdx n = l.erase l[n] := by
  rw [List.erase_eq_eraseIdx_of_idxOf]
  exact (List.Nodup.idxOf_getElem h n hn).symm ▸ rfl

end StLib.Base.SortedQueue
