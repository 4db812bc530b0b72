import Mathlib.Data.List.TakeWhile

/-! # Tokens

`strtok` and `getline` with one delimiter, on what is left of a text, and the pieces of a text
between delimiters. -/
namespace StLib.Base.Tokens

variable {α : Type*}

/-- A text is a piece and the pieces behind the delimiter, or one piece. -/
theorem exists_piece (d : α) (l : List α) : (∃ t rest, d ∉ t ∧ l = t ++ d :: rest) ∨ d ∉ l := by
  induction l with
  | nil => exact .inr List.not_mem_nil
  | cons x l ih =>
    by_cases hx : x = d
    · exact .inl ⟨[], l, List.not_mem_nil, by rw [hx, List.nil_append]⟩
    · rcases ih with ⟨t, rest, ht, rfl⟩ | hl
      · have ht := List.not_mem_cons_of_ne_of_not_mem (Ne.symm hx) ht
        exact .inl ⟨x :: t, rest, ht, (List.cons_append ..).symm⟩
      · exact .inr (List.not_mem_cons_of_ne_of_not_mem (Ne.symm hx) hl)

variable [BEq α]

/-- The text up to the next delimiter, and what is left behind it. -/
def getline (d : α) (l : List α) : List α × List α :=
  (l.takeWhile (· != d), (l.dropWhile (· != d)).tail)

/-- Delimiters are skipped, and nothing behind them is no token. -/
def strtok (d : α) (l : List α) : Option (List α × List α) :=
  let l := l.dropWhile (· == d)
  if l.isEmpty then none else some (getline d l)

/-- The pieces between delimiters that are not empty. -/
def parts (d : α) (l : List α) : List (List α) := (l.splitOn d).filter fun part => !part.isEmpty

section

variable [LawfulBEq α] {d : α} {t l rest : List α}

theorem ne_of_notMem (h : d ∉ t) : ∀ x ∈ t, (x != d) = true :=
  fun _ hx => bne_iff_ne.mpr fun he => h (he ▸ hx)

theorem getline_append (h : d ∉ t) (rest : List α) : getline d (t ++ d :: rest) = (t, rest) := by
  have hstop : (d != d) = false := bne_self_eq_false d
  rw [getline, List.takeWhile_append_of_pos (ne_of_notMem h), List.dropWhile_append_of_pos (ne_of_notMem h),
    List.takeWhile_cons_of_neg (by rw [hstop]; decide), List.dropWhile_cons_of_neg (by rw [hstop]; decide),
    List.append_nil, List.tail_cons]

theorem getline_last (h : d ∉ t) : getline d t = (t, []) := by
  rw [getline, List.takeWhile_eq_self_iff.mpr (ne_of_notMem h),
    List.dropWhile_eq_nil_iff.mpr (ne_of_notMem h), List.tail_nil]

theorem parts_append (h : d ∉ t) (rest : List α) :
    parts d (t ++ d :: rest) = if t.isEmpty then parts d rest else t :: parts d rest := by
  rw [parts, List.splitOn_append_cons_self_of_not_mem h, List.filter_cons, parts]
  cases t.isEmpty <;> rfl

theorem parts_last (h : d ∉ t) : parts d t = if t.isEmpty then [] else [t] := by
  rw [parts, List.splitOn_eq_singleton h, List.filter_cons, List.filter_nil]
  cases t.isEmpty <;> rfl

theorem strtok_cons_self (d : α) (l : List α) : strtok d (d :: l) = strtok d l := by
  rw [strtok, List.dropWhile_cons_of_pos (p := (· == d)) (beq_self_eq_true d), strtok]

theorem strtok_eq_getline (hne : t ≠ []) (h : d ∉ t) (rest : List α) :
    strtok d (t ++ rest) = some (getline d (t ++ rest)) := by
  match t, hne with
  | x :: t, _ =>
    have hx : (x == d) = false := by
      simpa using ne_of_notMem h x List.mem_cons_self
    rw [strtok, List.cons_append, List.dropWhile_cons_of_neg (by rw [hx]; decide)]
    rfl

/-- **Tokens** are the pieces that are not empty. -/
theorem strtok_spec (d : α) (l : List α) :
    match strtok d l with
    | none => parts d l = []
    | some (t, rest) => parts d l = t :: parts d rest ∧ rest.length < l.length := by
  induction l with
  | nil => rfl
  | cons x l ih =>
    by_cases hx : x = d
    · have hskip : parts d (d :: l) = parts d l := parts_append List.not_mem_nil l
      rw [hx, strtok_cons_self]
      cases hl : strtok d l with
      | none =>
        rw [hl] at ih
        exact hskip.trans ih
      | some token =>
        rw [hl] at ih
        exact ⟨hskip.trans ih.1, Nat.lt_succ_of_lt ih.2⟩
    · rcases exists_piece d l with ⟨t, rest, ht, rfl⟩ | hl
      · have hpiece := List.not_mem_cons_of_ne_of_not_mem (Ne.symm hx) ht
        have htoken := strtok_eq_getline (List.cons_ne_nil x t) hpiece (d :: rest)
        rw [getline_append hpiece] at htoken
        rw [← List.cons_append, htoken]
        refine ⟨parts_append hpiece rest, ?_⟩
        rw [List.length_append, List.length_cons, List.length_cons]
        omega
      · have hpiece := List.not_mem_cons_of_ne_of_not_mem (Ne.symm hx) hl
        have htoken := strtok_eq_getline (List.cons_ne_nil x l) hpiece []
        rw [List.append_nil, getline_last hpiece] at htoken
        rw [htoken]
        exact ⟨parts_last hpiece, Nat.succ_pos l.length⟩

end

end StLib.Base.Tokens
