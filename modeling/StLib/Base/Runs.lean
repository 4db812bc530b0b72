import Mathlib

/-! # Runs of a labelled step relation

`Run step ok s ls t` is a run from `s` to `t` whose steps carry the labels `ls`
and each meet the condition `ok` in the state they are taken from. -/
namespace StLib.Base.Runs

variable {σ α : Type*}

inductive Run (step : σ → α → σ → Prop) (ok : σ → α → Prop) : σ → List α → σ → Prop
  | nil (s : σ) : Run step ok s [] s
  | snoc {s t u : σ} {ls : List α} {a : α} :
      Run step ok s ls t → ok t a → step t a u → Run step ok s (ls ++ [a]) u

variable {step : σ → α → σ → Prop} {ok ok' : σ → α → Prop} {s t u : σ}

/-- What holds at the start and is kept by every allowed step holds at the end. -/
theorem Run.invariant {P : σ → Prop} {ls : List α} (r : Run step ok s ls t) (h0 : P s)
    (hstep : ∀ t a u, P t → ok t a → step t a u → P u) : P t := by
  induction r with
  | nil => exact h0
  | snoc _ hok hs ih => exact hstep _ _ _ ih hok hs

/-- A run under a stronger condition is a run under a weaker one. -/
theorem Run.mono {ls : List α} (r : Run step ok s ls t) (h : ∀ t a, ok t a → ok' t a) :
    Run step ok' s ls t := by
  induction r with
  | nil => exact .nil _
  | snoc _ hok hs ih => exact .snoc ih (h _ _ hok) hs

/-- A run of a relation is a run of a wider one. -/
theorem Run.widen {step' : σ → α → σ → Prop} {ls : List α} (r : Run step ok s ls t)
    (h : ∀ t a u, step t a u → step' t a u) : Run step' ok s ls t := by
  induction r with
  | nil => exact .nil _
  | snoc _ hok hs ih => exact .snoc ih hok (h _ _ _ hs)

theorem Run.single {a : α} (hok : ok s a) (hs : step s a t) : Run step ok s [a] t :=
  .snoc (.nil s) hok hs

theorem Run.append {ls ms : List α} (r : Run step ok s ls t) (r' : Run step ok t ms u) :
    Run step ok s (ls ++ ms) u := by
  induction r' with
  | nil => simpa using r
  | snoc _ hok hs ih => rw [← List.append_assoc]; exact .snoc ih hok hs

theorem Run.cons {a : α} {ls : List α} (hok : ok s a) (hs : step s a t) (r : Run step ok t ls u) :
    Run step ok s (a :: ls) u := (Run.single hok hs).append r

/-- The last step of a run. -/
theorem Run.last {a : α} {ls : List α} (r : Run step ok s (ls ++ [a]) u) :
    ∃ t, Run step ok s ls t ∧ ok t a ∧ step t a u := by
  generalize hms : ls ++ [a] = ms at r
  cases r with
  | nil => exact absurd hms (by simp)
  | snoc r hok hs =>
    obtain ⟨rfl, ha⟩ := List.append_inj' hms rfl
    cases ha
    exact ⟨_, r, hok, hs⟩

/-- A run goes through a state after each prefix of its labels. -/
theorem Run.prefix {ls ms : List α} (r : Run step ok s ls t) (h : ms <+: ls) :
    ∃ u, Run step ok s ms u := by
  induction r with
  | nil => exact ⟨s, List.prefix_nil.mp h ▸ .nil s⟩
  | snoc r hok hs ih =>
    rcases List.prefix_concat_iff.mp h with rfl | h
    · exact ⟨_, .snoc r hok hs⟩
    · exact ih h

/-- A condition on the labels is a condition on the steps. -/
theorem Run.labels {ls : List α} {Q : α → Prop} (r : Run step ok s ls t) (h : ∀ a ∈ ls, Q a) :
    Run step (fun _ a => Q a) s ls t := by
  induction r with
  | nil => exact .nil _
  | snoc _ _ hs ih =>
    exact .snoc (ih fun a ha => h a (List.mem_append_left _ ha))
      (h _ (List.mem_append_right _ List.mem_cons_self)) hs

/-- **Exact conditions.** Where every step keeps `P` exactly when it is allowed, `P` tells
the runs whose steps were all allowed from the others. -/
theorem Run.exact {I P : σ → Prop} {ls : List α} (r : Run step (fun _ _ => True) s ls t)
    (hI : I s) (hP : P s) (hkeep : ∀ t a u, I t → step t a u → I u)
    (hstep : ∀ t a u, I t → step t a u → (P u ↔ P t ∧ ok t a)) :
    P t ↔ Run step ok s ls t := by
  have hinv : ∀ {ms : List α} {u : σ}, Run step (fun _ _ => True) s ms u → I u := fun r =>
    r.invariant hI fun t a u h _ hs => hkeep t a u h hs
  induction r with
  | nil => exact ⟨fun _ => .nil _, fun _ => hP⟩
  | @snoc t u ms a r _ hs ih =>
    constructor
    · intro h
      obtain ⟨ht, hok⟩ := (hstep _ _ _ (hinv r) hs).mp h
      exact .snoc (ih.mp ht) hok hs
    · intro r'
      obtain ⟨-, hPu⟩ := r'.invariant (P := fun v => I v ∧ P v) ⟨hI, hP⟩ fun v b w h hok hs =>
        ⟨hkeep v b w h.1 hs, (hstep v b w h.1 hs).mpr ⟨h.2, hok⟩⟩
      exact hPu

/-- Two conditions that agree on every step from where an invariant holds allow the same
runs. -/
theorem Run.congr {I : σ → Prop} {ls : List α} (hI : I s)
    (hkeep : ∀ t a u, I t → ok t a → step t a u → I u)
    (h : ∀ t a u, I t → step t a u → (ok t a ↔ ok' t a)) :
    Run step ok s ls t ↔ Run step ok' s ls t := by
  constructor
  · intro r
    suffices hboth : I t ∧ Run step ok' s ls t from hboth.2
    induction r with
    | nil => exact ⟨hI, .nil _⟩
    | snoc _ hok hs ih => exact ⟨hkeep _ _ _ ih.1 hok hs, .snoc ih.2 ((h _ _ _ ih.1 hs).mp hok) hs⟩
  · intro r
    suffices hboth : I t ∧ Run step ok s ls t from hboth.2
    induction r with
    | nil => exact ⟨hI, .nil _⟩
    | snoc _ hok hs ih =>
      have hok' := (h _ _ _ ih.1 hs).mpr hok
      exact ⟨hkeep _ _ _ ih.1 hok' hs, .snoc ih.2 hok' hs⟩

/-! ## Steps that are functions -/

/-- Execute the labels in order. -/
def exec (f : σ → α → Option σ) : σ → List α → Option σ
  | s, [] => some s
  | s, a :: ls => (f s a).bind fun t => exec f t ls

/-- An execution whose labels are all allowed is a run. -/
theorem run_of_exec {f : σ → α → Option σ} :
    ∀ {ls : List α} {s t : σ}, (∀ s, ∀ a ∈ ls, ok s a) → exec f s ls = some t →
      Run (fun s a t => f s a = some t) ok s ls t
  | [], s, t, _, h => by cases h; exact .nil _
  | a :: ls, s, t, hok, h => by
    obtain ⟨u, hu, ht⟩ := Option.bind_eq_some_iff.mp h
    exact Run.cons (hok s a (by simp)) hu
      (run_of_exec (fun s b hb => hok s b (List.mem_cons_of_mem _ hb)) ht)

end StLib.Base.Runs
