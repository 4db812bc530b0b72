import Mathlib.Data.List.Nodup
import Mathlib.Logic.Function.Basic

/-! # Compaction in place

An array with a counter as a list without gaps. A pass moves the entries that are kept to
the front, in order, and gives up the others; whether an entry is kept is read from a state
that giving up another entry leaves as it was for it. -/
namespace StLib.Base.Compaction

variable {α σ : Type*}

/-- The array holds a list from its start on, and nothing behind it. -/
def Stores (slots : Nat → Option α) (as : List α) : Prop := ∀ i, slots i = as[i]?

section Pass

variable (keep : σ → α → Bool) (drop : α → σ → σ)

/-- The `n` entries from the `s`-th on. Those that are kept go to the `w`-th and on. -/
def compact : Nat → Nat → Nat → (Nat → Option α) → σ → Nat × (Nat → Option α) × σ
  | 0, _, w, slots, x => (w, slots, x)
  | n + 1, s, w, slots, x =>
    match slots s with
    | some a =>
      if keep x a then compact n (s + 1) (w + 1) (Function.update slots w (some a)) x
      else compact n (s + 1) w slots (drop a x)
    | none => compact n (s + 1) w slots x

/-- The `n` entries from the `s`-th on are emptied. -/
def clear : Nat → Nat → (Nat → Option α) → Nat → Option α
  | 0, _, slots => slots
  | n + 1, s, slots => clear n (s + 1) (Function.update slots s none)

def pass (count : Nat) (slots : Nat → Option α) (x : σ) : Nat × (Nat → Option α) × σ :=
  let (w, slots, x) := compact keep drop count 0 0 slots x
  (w, clear (count - w) w slots, x)

/-- All of a list is given up, in order. -/
def dropAll : List α → σ → σ
  | [], x => x
  | a :: rest, x => dropAll rest (drop a x)

end Pass

variable {keep : σ → α → Bool} {drop : α → σ → σ} {slots : Nat → Option α} {as : List α}

theorem clear_apply (n s : Nat) (slots : Nat → Option α) (i : Nat) :
    clear n s slots i = if s ≤ i ∧ i < s + n then none else slots i := by
  induction n generalizing s slots with
  | zero => rw [if_neg (by omega)]; rfl
  | succ n ih =>
    rw [clear, ih]
    by_cases hi : i = s
    · subst hi
      simp
    · rw [Function.update_of_ne hi]
      exact if_congr (by omega) rfl rfl

/-- What the pass keeps of an entry does not change while it gives up others. -/
theorem filter_drop (hlocal : ∀ a b x, a ≠ b → keep (drop a x) b = keep x b) {a : α}
    {rest : List α} (ha : a ∉ rest) (x : σ) :
    rest.filter (keep (drop a x)) = rest.filter (keep x) ∧
      (rest.filter fun b => !keep (drop a x) b) = rest.filter fun b => !keep x b := by
  have heq : ∀ b ∈ rest, keep (drop a x) b = keep x b := fun b hb =>
    hlocal a b x fun h => ha (h ▸ hb)
  exact ⟨List.filter_congr heq, List.filter_congr fun b hb => congrArg _ (heq b hb)⟩

theorem keep_dropAll (hlocal : ∀ a b x, a ≠ b → keep (drop a x) b = keep x b) {a : α} :
    ∀ (bs : List α) (x : σ), a ∉ bs → keep (dropAll drop bs x) a = keep x a
  | [], _, _ => rfl
  | b :: bs, x, h => by
    rw [List.mem_cons, not_or] at h
    obtain ⟨hne, hrest⟩ := h
    exact (keep_dropAll hlocal bs (drop b x) hrest).trans (hlocal b a x (Ne.symm hne))

/-- The pass from the `s`-th entry on, after it has kept `kept`. -/
theorem compact_spec (hlocal : ∀ a b x, a ≠ b → keep (drop a x) b = keep x b) {rest : List α}
    (hnodup : rest.Nodup) {kept : List α} {s : Nat} {slots : Nat → Option α} (x : σ)
    (hw : kept.length ≤ s) (hkept : ∀ i < kept.length, slots i = kept[i]?)
    (hrest : ∀ i, slots (s + i) = rest[i]?) :
    ∃ slots', compact keep drop rest.length s kept.length slots x =
        ((kept ++ rest.filter (keep x)).length, slots',
          dropAll drop (rest.filter fun a => !keep x a) x) ∧
      (∀ i < (kept ++ rest.filter (keep x)).length, slots' i = (kept ++ rest.filter (keep x))[i]?) ∧
        ∀ i, slots' (s + rest.length + i) = none := by
  induction rest generalizing kept s slots x with
  | nil =>
    refine ⟨slots, by simp [compact, dropAll], by simpa using hkept, fun i => ?_⟩
    simpa using hrest i
  | cons a rest ih =>
    obtain ⟨ha, hnodup⟩ := List.nodup_cons.mp hnodup
    have hs : slots s = some a := hrest 0
    have hnext : ∀ i, slots (s + 1 + i) = rest[i]? := by
      intro i
      rw [show s + 1 + i = s + (i + 1) by omega]
      exact hrest (i + 1)
    rw [List.length_cons, compact, hs]
    dsimp only
    by_cases hk : keep x a
    · rw [if_pos hk, List.filter_cons_of_pos hk, List.filter_cons_of_neg (by simp [hk])]
      have hkept' : ∀ i < (kept ++ [a]).length,
          Function.update slots kept.length (some a) i = (kept ++ [a])[i]? := by
        intro i hi
        by_cases he : i = kept.length
        · subst he
          simp
        · have hlt : i < kept.length := by
            rw [List.length_append, List.length_singleton] at hi
            omega
          rw [Function.update_of_ne he, List.getElem?_append_left hlt]
          exact hkept i hlt
      have hnext' : ∀ i, Function.update slots kept.length (some a) (s + 1 + i) = rest[i]? := by
        intro i
        rw [Function.update_of_ne (by omega)]
        exact hnext i
      obtain ⟨slots', he, hbefore, hafter⟩ :=
        ih hnodup x (by simp; omega) hkept' hnext'
      rw [List.length_append, List.length_singleton] at he
      rw [List.append_cons]
      refine ⟨slots', he, hbefore, fun i => ?_⟩
      rw [show s + (rest.length + 1) + i = s + 1 + rest.length + i by omega]
      exact hafter i
    · rw [if_neg hk, List.filter_cons_of_neg hk, List.filter_cons_of_pos (by simp [hk]), dropAll]
      obtain ⟨slots', he, hbefore, hafter⟩ := ih hnodup (drop a x) (by omega) hkept hnext
      obtain ⟨hkeep, hdrop⟩ := filter_drop hlocal ha x
      rw [hkeep, hdrop] at he
      rw [hkeep] at hbefore
      refine ⟨slots', he, hbefore, fun i => ?_⟩
      rw [show s + (rest.length + 1) + i = s + 1 + rest.length + i by omega]
      exact hafter i

/-- What was kept is still to be kept in the end. -/
theorem keep_of_kept (hlocal : ∀ a b x, a ≠ b → keep (drop a x) b = keep x b) {a : α} {x : σ}
    (ha : a ∈ as.filter (keep x)) : keep (dropAll drop (as.filter fun a => !keep x a) x) a := by
  have hk := (List.mem_filter.mp ha).2
  rw [keep_dropAll hlocal]
  · exact hk
  · intro hmem
    have hnot := (List.mem_filter.mp hmem).2
    rw [hk] at hnot
    cases hnot

/-- **Compaction.** A pass over a list leaves the entries that are kept, in order, and gives
up the others once each. -/
theorem pass_spec (hlocal : ∀ a b x, a ≠ b → keep (drop a x) b = keep x b) (hnodup : as.Nodup)
    (h : Stores slots as) (x : σ) :
    ∃ slots', pass keep drop as.length slots x =
        ((as.filter (keep x)).length, slots', dropAll drop (as.filter fun a => !keep x a) x) ∧
      Stores slots' (as.filter (keep x)) := by
  obtain ⟨slots', he, hbefore, hafter⟩ := compact_spec hlocal hnodup x
    (show ([] : List α).length ≤ 0 from Nat.le_refl 0) (fun i hi => absurd hi (Nat.not_lt_zero i))
    (fun i => by simpa using h i)
  rw [List.nil_append] at he hbefore
  unfold pass
  rw [List.length_nil] at he
  rw [he]
  refine ⟨_, rfl, fun i => ?_⟩
  have hle := List.length_filter_le (keep x) as
  rw [clear_apply]
  by_cases hi : i < (as.filter (keep x)).length
  · rw [if_neg (by omega)]
    exact hbefore i hi
  · rw [List.getElem?_eq_none (by omega)]
    split
    · rfl
    · have hbehind := hafter (i - as.length)
      rwa [show 0 + as.length + (i - as.length) = i by omega] at hbehind

end StLib.Base.Compaction
