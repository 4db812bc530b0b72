import Mathlib.Data.List.DropRight
import Mathlib.Tactic.Common

/-! # Continuous active time

A stream of events with ticks, of which some are active. `Sustained` says that the
events have been active for some time; `accumulate` is a counter that adds, at each
active event, the time since the event before, and restarts at an inactive one. The
counter starts a run of active events at the event before it (`le_accumulate_iff`). -/
namespace StLib.Base.ActiveTime

variable {ε : Type*} (active : ε → Bool) (tick : ε → Nat)

/-- The events of a run of active events at the end, from the first to the last, are
`w` apart. -/
def Sustained (w : Nat) (es : List ε) : Prop :=
  ∃ pre first run, es = pre ++ first :: run ∧ (∀ e ∈ first :: run, active e = true) ∧
    tick first + w ≤ tick ((first :: run).getLast (List.cons_ne_nil _ _))

/-- The run of active events at the end is shorter than `w`, and as long as `w` with the
inactive event before it. -/
def Overcounts (w : Nat) (es : List ε) : Prop :=
  ∃ pre before first run, es = pre ++ before :: first :: run ∧ active before = false ∧
    (∀ e ∈ first :: run, active e = true) ∧
    tick ((first :: run).getLast (List.cons_ne_nil _ _)) < tick first + w ∧
    tick before + w ≤ tick ((first :: run).getLast (List.cons_ne_nil _ _))

/-- The tick of the event before, and the time counted. -/
def count (c : Option Nat × Nat) (e : ε) : Option Nat × Nat :=
  (some (tick e), if active e then c.2 + (tick e - c.1.getD (tick e)) else 0)

def accumulate (es : List ε) : Option Nat × Nat := es.foldl (count active tick) (none, 0)

/-- The events come in the order of their ticks. -/
def Ordered (es : List ε) : Prop := es.Pairwise fun a b => tick a ≤ tick b

variable {active tick}

theorem accumulate_append (es : List ε) (e : ε) :
    accumulate active tick (es ++ [e]) = count active tick (accumulate active tick es) e := by
  rw [accumulate, List.foldl_append]
  rfl

theorem accumulate_tick (es : List ε) (e : ε) :
    (accumulate active tick (es ++ [e])).1 = some (tick e) := by
  rw [accumulate_append]
  rfl

theorem count_le {c : Option Nat × Nat} {e : ε} (hc : c.2 ≤ c.1.getD 0)
    (he : c.1.getD 0 ≤ tick e) : (count active tick c e).2 ≤ tick e := by
  obtain ⟨last, time⟩ := c
  cases last with
  | none =>
    obtain rfl : time = 0 := Nat.le_zero.mp hc
    simp [count]
  | some t =>
    simp only [Option.getD_some] at hc he
    cases hact : active e with
    | true =>
      simp only [count, hact, if_true, Option.getD_some]
      omega
    | false => simp [count, hact]

/-- The counter never exceeds the last tick, and the last tick is one of the stream. -/
theorem accumulate_le {es : List ε} (ho : Ordered tick es) :
    (accumulate active tick es).2 ≤ (accumulate active tick es).1.getD 0 ∧
      ∀ t ∈ (accumulate active tick es).1, ∃ e ∈ es, tick e = t := by
  induction es using List.reverseRecOn with
  | nil => exact ⟨le_refl _, nofun⟩
  | append_singleton es e ih =>
    obtain ⟨hle, hmem⟩ := ih (List.pairwise_append.mp ho).1
    have hlast : (accumulate active tick es).1.getD 0 ≤ tick e := by
      cases hl : (accumulate active tick es).1 with
      | none => exact Nat.zero_le _
      | some t =>
        obtain ⟨e', he', rfl⟩ := hmem t hl
        exact (List.pairwise_append.mp ho).2.2 e' he' e (List.mem_singleton_self e)
    rw [accumulate_tick, accumulate_append]
    refine ⟨count_le hle hlast, ?_⟩
    rintro t ⟨⟩
    exact ⟨e, by simp, rfl⟩

/-- A run of active events adds the time from the event before to its last. -/
theorem count_run {t c : Nat} : ∀ {run : List ε}, (∀ e ∈ run, active e = true) →
    (∀ e ∈ run, t ≤ tick e) → Ordered tick run →
    run.foldl (count active tick) (some t, c) =
      (some ((run.getLast?.map tick).getD t), c + ((run.getLast?.map tick).getD t - t)) := by
  intro run
  induction run generalizing t c with
  | nil => simp
  | cons e run ih =>
    intro ha ht ho
    obtain ⟨hle, ho⟩ := List.pairwise_cons.mp ho
    have hte := ht e List.mem_cons_self
    have hlast : tick e ≤ (run.getLast?.map tick).getD (tick e) := by
      cases hl : run.getLast? with
      | none => exact le_refl _
      | some l => exact hle l (List.mem_of_getLast? hl)
    rw [List.foldl_cons, count, if_pos (ha e List.mem_cons_self),
      ih (fun e' h => ha e' (List.mem_cons_of_mem _ h)) hle ho, List.getLast?_cons]
    cases hl : run.getLast? with
    | none => simp
    | some l =>
      rw [hl] at hlast
      simp only [Option.map_some, Option.getD_some] at hlast ⊢
      rw [show c + (tick e - t) + (tick l - tick e) = c + (tick l - t) by omega]

/-- The counter after an inactive event and a run of active ones. -/
theorem accumulate_after {pre run : List ε} {before first : ε}
    (hb : active before = false) (ha : ∀ e ∈ first :: run, active e = true)
    (ho : Ordered tick (pre ++ before :: first :: run)) :
    (accumulate active tick (pre ++ before :: first :: run)).2 =
      tick ((first :: run).getLast (List.cons_ne_nil _ _)) - tick before := by
  obtain ⟨hle, ho⟩ := List.pairwise_cons.mp (List.pairwise_append.mp ho).2.1
  rw [accumulate, List.foldl_append, List.foldl_cons, count, if_neg (by rw [hb]; nofun),
    count_run ha hle ho, List.getLast?_eq_getLast_of_ne_nil (List.cons_ne_nil _ _)]
  simp

/-- The counter of a stream of active events only. -/
theorem accumulate_all {run : List ε} {first : ε}
    (ha : ∀ e ∈ first :: run, active e = true) (ho : Ordered tick (first :: run)) :
    (accumulate active tick (first :: run)).2 =
      tick ((first :: run).getLast (List.cons_ne_nil _ _)) - tick first := by
  obtain ⟨hle, ho'⟩ := List.pairwise_cons.mp ho
  rw [accumulate, List.foldl_cons, count, if_pos (ha first List.mem_cons_self),
    count_run (fun e h => ha e (List.mem_cons_of_mem _ h)) hle ho', List.getLast_eq_getLastD]
  simp [List.getLastD_eq_getLast?]

/-- Where more is active, more is counted. -/
theorem accumulate_mono {active' : ε → Bool} {es : List ε}
    (h : ∀ e ∈ es, active e = true → active' e = true) :
    (accumulate active tick es).1 = (accumulate active' tick es).1 ∧
      (accumulate active tick es).2 ≤ (accumulate active' tick es).2 := by
  induction es using List.reverseRecOn with
  | nil => exact ⟨rfl, le_refl _⟩
  | append_singleton es e ih =>
    obtain ⟨hlast, hle⟩ := ih fun e' he' => h e' (List.mem_append_left _ he')
    rw [accumulate_append, accumulate_append, count, count, hlast]
    refine ⟨rfl, ?_⟩
    cases hact : active e with
    | false => exact Nat.zero_le _
    | true =>
      rw [h e (by simp) hact]
      exact Nat.add_le_add_right hle _

theorem accumulate_inactive {es : List ε} {e : ε} (he : active e = false) :
    (accumulate active tick (es ++ [e])).2 = 0 := by
  rw [accumulate_append, count, if_neg (by rw [he]; nofun)]

/-- The run of active events that a stream ends with. -/
theorem last_run (es : List ε) :
    es = [] ∨ (∃ pre e, es = pre ++ [e] ∧ active e = false) ∨
      (∃ first run, es = first :: run ∧ ∀ e ∈ first :: run, active e = true) ∨
      ∃ pre before first run, es = pre ++ before :: first :: run ∧ active before = false ∧
        ∀ e ∈ first :: run, active e = true := by
  induction es using List.reverseRecOn with
  | nil => exact .inl rfl
  | append_singleton es e ih =>
    right
    cases he : active e with
    | false => exact .inl ⟨es, e, rfl, he⟩
    | true =>
      right
      have hsnoc : ∀ {l : List ε}, (∀ e ∈ l, active e = true) → ∀ a ∈ l ++ [e], active a = true := by
        intro l hl a ha
        rcases List.mem_append.mp ha with h | h
        · exact hl a h
        · rwa [List.mem_singleton.mp h]
      rcases ih with rfl | ⟨pre, b, rfl, hb⟩ | ⟨first, run, rfl, ha⟩ |
        ⟨pre, b, first, run, rfl, hb, ha⟩
      · exact .inl ⟨e, [], rfl, hsnoc (l := []) nofun⟩
      · exact .inr ⟨pre, b, e, [], by simp, hb, hsnoc (l := []) nofun⟩
      · exact .inl ⟨first, run ++ [e], rfl, hsnoc ha⟩
      · exact .inr ⟨pre, b, first, run ++ [e], by simp, hb, hsnoc ha⟩

/-- A run of active events at the end starts after any inactive event. -/
theorem run_suffix {pre run rest : List ε} {before : ε} (hb : active before = false)
    (ha : ∀ e ∈ run, active e = true) (h : run <:+ pre ++ before :: rest) : run <:+ rest := by
  have hnot : before ∉ run := fun hm => absurd (hb.symm.trans (ha _ hm)) nofun
  rcases List.suffix_or_suffix_of_suffix h (List.suffix_append pre (before :: rest)) with h | h
  · rcases List.suffix_cons_iff.mp h with rfl | h
    · exact absurd List.mem_cons_self hnot
    · exact h
  · exact absurd (h.subset List.mem_cons_self) hnot

theorem first_le {run run' : List ε} {first first' : ε} (ho : Ordered tick (first :: run))
    (h : first' :: run' <:+ first :: run) : tick first ≤ tick first' := by
  rcases List.mem_cons.mp (h.subset List.mem_cons_self) with rfl | hm
  · exact le_refl _
  · exact (List.pairwise_cons.mp ho).1 _ hm

/-- The longest run of active events decides. -/
theorem sustained_run {w : Nat} {pre run : List ε} {first : ε}
    (ha : ∀ e ∈ first :: run, active e = true) (ho : Ordered tick (first :: run))
    (hb : ∀ X, (∀ e ∈ X, active e = true) → X <:+ pre ++ first :: run → X <:+ first :: run) :
    Sustained active tick w (pre ++ first :: run) ↔
      tick first + w ≤ tick ((first :: run).getLast (List.cons_ne_nil _ _)) := by
  refine ⟨?_, fun h => ⟨pre, first, run, rfl, ha, h⟩⟩
  rintro ⟨pre', first', run', he, ha', hw⟩
  have hs : first' :: run' <:+ first :: run := hb _ ha' ⟨pre', he.symm⟩
  have hle := first_le ho hs
  have hlast := hs.getLast (List.cons_ne_nil _ _)
  rw [hlast] at hw
  omega

theorem sustained_after {w : Nat} {pre run : List ε} {before first : ε}
    (hb : active before = false) (ha : ∀ e ∈ first :: run, active e = true)
    (ho : Ordered tick (pre ++ before :: first :: run)) :
    Sustained active tick w (pre ++ before :: first :: run) ↔
      tick first + w ≤ tick ((first :: run).getLast (List.cons_ne_nil _ _)) := by
  have ho' := (List.pairwise_cons.mp (List.pairwise_append.mp ho).2.1).2
  rw [List.append_cons]
  exact sustained_run ha ho' fun X hX h => run_suffix hb hX (by simpa using h)

theorem overcounts_run {w : Nat} {pre run : List ε} {before first : ε}
    (hb : active before = false) (ha : ∀ e ∈ first :: run, active e = true) :
    Overcounts active tick w (pre ++ before :: first :: run) ↔
      tick ((first :: run).getLast (List.cons_ne_nil _ _)) < tick first + w ∧
        tick before + w ≤ tick ((first :: run).getLast (List.cons_ne_nil _ _)) := by
  refine ⟨?_, fun h => ⟨pre, before, first, run, rfl, hb, ha, h⟩⟩
  rintro ⟨pre', before', first', run', he, hb', ha', hw⟩
  have hs : first' :: run' <:+ first :: run :=
    run_suffix hb ha' ⟨pre' ++ [before'], by rw [he]; simp⟩
  have hs' : first :: run <:+ first' :: run' :=
    run_suffix hb' ha ⟨pre ++ [before], by rw [← he]; simp⟩
  obtain ⟨rfl, rfl⟩ := List.cons.inj (hs.eq_of_length_le hs'.length_le)
  obtain ⟨-, hend⟩ := List.append_inj' he rfl
  obtain rfl := (List.cons.inj hend).1
  exact hw

/-- **The counter** reaches `w` when the events have been active for `w`, and when they
have been with the inactive event before them. -/
theorem le_accumulate_iff {w : Nat} (hw : 0 < w) {es : List ε} (ho : Ordered tick es) :
    w ≤ (accumulate active tick es).2 ↔
      Sustained active tick w es ∨ Overcounts active tick w es := by
  rcases last_run es with rfl | ⟨pre, e, rfl, he⟩ | ⟨first, run, rfl, ha⟩ |
    ⟨pre, before, first, run, rfl, hb, ha⟩
  · -- no event
    refine ⟨fun h => absurd h (Nat.not_le.mpr hw), ?_⟩
    rintro (⟨pre, first, run, he, -⟩ | ⟨pre, before, first, run, he, -⟩) <;> simp at he
  · -- the last event is inactive
    rw [accumulate_inactive he]
    refine ⟨fun h => absurd h (Nat.not_le.mpr hw), ?_⟩
    have hnil : ∀ {run : List ε}, (∀ e ∈ run, active e = true) → run <:+ pre ++ [e] → run = [] :=
      fun ha h => List.suffix_nil.mp (run_suffix he ha h)
    rintro (⟨pre', first, run, he', ha, -⟩ | ⟨pre', before, first, run, he', -, ha, -⟩)
    · exact absurd (hnil ha ⟨pre', he'.symm⟩) (List.cons_ne_nil _ _)
    · exact absurd (hnil ha ⟨pre' ++ [before], by simp [he']⟩) (List.cons_ne_nil _ _)
  · -- all events are active
    have hs : Sustained active tick w ([] ++ first :: run) ↔
        tick first + w ≤ tick ((first :: run).getLast (List.cons_ne_nil _ _)) :=
      sustained_run ha ho fun X _ h => h
    rw [List.nil_append] at hs
    rw [accumulate_all ha ho, hs]
    have hno : ¬ Overcounts active tick w (first :: run) := by
      rintro ⟨pre, before, first', run', he, hb, -⟩
      exact absurd (hb.symm.trans (ha before (by rw [he]; simp))) nofun
    have hle : tick first ≤ tick ((first :: run).getLast (List.cons_ne_nil _ _)) :=
      @first_le _ _ run [] _ _ ho ⟨_, List.dropLast_append_getLast _⟩
    simp only [hno, or_false]
    omega
  · -- a run of active events after an inactive one
    have hle := (List.pairwise_cons.mp (List.pairwise_append.mp ho).2.1).1
    rw [accumulate_after hb ha ho, sustained_after hb ha ho, overcounts_run hb ha]
    have hbf := hle first List.mem_cons_self
    have hbl := hle _ (List.getLast_mem (List.cons_ne_nil first run))
    omega

theorem not_sustained_of_overcounts {w : Nat} {es : List ε} (ho : Ordered tick es)
    (h : Overcounts active tick w es) : ¬ Sustained active tick w es := by
  obtain ⟨pre, before, first, run, rfl, hb, ha, hlt, -⟩ := h
  rw [sustained_after hb ha ho]
  omega

end StLib.Base.ActiveTime
