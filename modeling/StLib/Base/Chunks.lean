import Mathlib.Tactic.Common

/-! # Decoding a stream that comes in chunks

A decoder takes what it can from the front of a list of symbols, one step at a time,
and keeps the rest for later. When more symbols behind never change what a step does,
the chunks in which a stream comes make no difference (`feed_eq_decode`). -/
namespace StLib.Base.Chunks

/-- A decoder over a state; each step may emit and shortens what it is given. -/
structure Decoder (σ β ε : Type*) where
  step : σ → List β → Option (List ε × σ × List β)
  shortens : ∀ {s l e t r}, step s l = some (e, t, r) → r.length < l.length

/-- What is emitted, the state and what is left. -/
structure Decoded (σ β ε : Type*) where
  emitted : List ε
  state : σ
  rest : List β

variable {σ β ε : Type*}

/-- `d` after `e` has been emitted. -/
def Decoded.after (e : List ε) (d : Decoded σ β ε) : Decoded σ β ε :=
  { d with emitted := e ++ d.emitted }

@[simp] theorem Decoded.after_nil (d : Decoded σ β ε) : d.after [] = d := rfl

@[simp] theorem Decoded.after_after (e f : List ε) (d : Decoded σ β ε) :
    (d.after f).after e = d.after (e ++ f) := by
  simp [after]

namespace Decoder

variable (D : Decoder σ β ε)

/-- Take steps as long as there are any. -/
def decode (s : σ) (l : List β) : Decoded σ β ε :=
  match h : D.step s l with
  | none => { emitted := [], state := s, rest := l }
  | some (e, t, r) =>
    have := D.shortens h
    (decode t r).after e
termination_by l.length

/-- In the states `I`, which the steps keep, more symbols behind do not change a step. -/
def Stable (I : σ → Prop) : Prop :=
  ∀ {s l e t r}, I s → D.step s l = some (e, t, r) →
    I t ∧ ∀ m, D.step s (l ++ m) = some (e, t, r ++ m)

/-- Decode a chunk behind what was left. -/
def feed (d : Decoded σ β ε) (chunk : List β) : Decoded σ β ε :=
  (D.decode d.state (d.rest ++ chunk)).after d.emitted

variable {D} {I : σ → Prop} {s t : σ} {l r : List β} {e : List ε}

theorem decode_none (h : D.step s l = none) :
    D.decode s l = { emitted := [], state := s, rest := l } := by
  rw [decode]
  split
  · rfl
  next h' => rw [h] at h'; cases h'

theorem decode_some (h : D.step s l = some (e, t, r)) :
    D.decode s l = (D.decode t r).after e := by
  rw [decode]
  split
  next h' => rw [h] at h'; cases h'
  next h' => rw [h] at h'; cases h'; rfl

/-- Decoding ends where no step is left. -/
theorem step_decode (s : σ) (l : List β) :
    D.step (D.decode s l).state (D.decode s l).rest = none := by
  induction hn : l.length using Nat.strongRecOn generalizing s l with
  | _ n ih =>
    cases h : D.step s l with
    | none => rw [decode_none h]; exact h
    | some p =>
      obtain ⟨e, t, r⟩ := p
      rw [decode_some h]
      exact ih r.length (hn ▸ D.shortens h) t r rfl

theorem decode_keeps (hD : D.Stable I) (hI : I s) (l : List β) : I (D.decode s l).state := by
  induction hn : l.length using Nat.strongRecOn generalizing s l with
  | _ n ih =>
    cases h : D.step s l with
    | none => rw [decode_none h]; exact hI
    | some p =>
      obtain ⟨e, t, r⟩ := p
      rw [decode_some h]
      exact ih r.length (hn ▸ D.shortens h) (hD hI h).1 r rfl

/-- **Two parts**: decode the first, and then the second behind what is left. -/
theorem decode_append (hD : D.Stable I) (hI : I s) (l m : List β) :
    D.decode s (l ++ m) = D.feed (D.decode s l) m := by
  induction hn : l.length using Nat.strongRecOn generalizing s l with
  | _ n ih =>
    cases h : D.step s l with
    | none => rw [decode_none h]; rfl
    | some p =>
      obtain ⟨e, t, r⟩ := p
      obtain ⟨ht, happ⟩ := hD hI h
      rw [decode_some h, decode_some (happ m), ih r.length (hn ▸ D.shortens h) ht r rfl]
      exact Decoded.after_after ..

/-- **Chunks**: fed in any chunks, a stream is decoded as a whole. -/
theorem feed_eq_decode (hD : D.Stable I) (hI : I s) (l : List β) (chunks : List (List β)) :
    chunks.foldl D.feed (D.decode s l) = D.decode s (l ++ chunks.flatten) := by
  induction chunks generalizing l with
  | nil => simp
  | cons c cs ih =>
    rw [List.foldl_cons, ← decode_append hD hI, ih, List.flatten_cons, List.append_assoc]

end Decoder

end StLib.Base.Chunks
