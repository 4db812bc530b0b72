import StLib.Base.Runs

/-! # Views of a machine

A part of a machine that changes with its own events only, each time as a small machine
would, does in every run what the small machine does with these events alone. -/
namespace StLib.Base.Views

open StLib.Base.Runs

variable {σ α : Type*}

/-- What is seen of the states `I` of a machine, which events are seen, and what they do. -/
structure View (step : σ → α → Option σ) (I : σ → Prop) (τ β : Type*) where
  see : σ → τ
  own : α → Option β
  next : τ → β → τ
  keeps : ∀ {s a t}, I s → step s a = some t → I t
  follows : ∀ {s a t}, I s → step s a = some t → see t = (own a).elim (see s) (next (see s))

namespace View

variable {step : σ → α → Option σ} {I : σ → Prop} {τ β : Type*} (V : View step I τ β)

/-- What the small machine does with its own events of a run. -/
def replay (x : τ) (events : List α) : τ := (events.filterMap V.own).foldl V.next x

@[simp] theorem replay_nil (x : τ) : V.replay x [] = x := rfl

theorem replay_cons (x : τ) (a : α) (events : List α) :
    V.replay x (a :: events) = V.replay ((V.own a).elim x (V.next x)) events := by
  cases h : V.own a <;> simp [replay, h]

/-- **A run is seen** as the run of the small machine on its own events. -/
theorem exec_see {s t : σ} {events : List α} (hs : I s) (h : exec step s events = some t) :
    I t ∧ V.see t = V.replay (V.see s) events := by
  induction events generalizing s with
  | nil =>
    cases h
    exact ⟨hs, rfl⟩
  | cons a events ih =>
    obtain ⟨u, hu, ht⟩ := Option.bind_eq_some_iff.mp h
    obtain ⟨hI, hsee⟩ := ih (V.keeps hs hu) ht
    exact ⟨hI, by rw [hsee, replay_cons, V.follows hs hu]⟩

end View

end StLib.Base.Views
