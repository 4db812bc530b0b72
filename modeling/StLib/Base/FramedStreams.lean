import StLib.Base.Chunks

/-! # Streams made of frames

A decoder that takes each frame of a kind in one step, and nothing of a frame that is not
complete, takes from any part of a stream of such frames those that are complete, in order. -/
namespace StLib.Base.FramedStreams

open StLib.Base.Chunks

variable {σ β ε : Type*} {D : Decoder σ β ε} {I : σ → Prop}

/-- How a decoder in the states `I` takes the frames of messages. -/
structure Framing (D : Decoder σ β ε) (I : σ → Prop) (μ : Type*) where
  frame : μ → List β
  emits : μ → List ε
  next : σ → μ → σ
  known : μ → Prop
  takes : ∀ {s m}, I s → known m → ∀ more,
    D.step s (frame m ++ more) = some (emits m, next s m, more)
  waits : ∀ {s m part more}, I s → known m → part ++ more = frame m → more ≠ [] →
    D.step s part = none
  keeps : ∀ {s m}, I s → known m → I (next s m)

/-- From nothing no step is possible. -/
theorem step_nil (D : Decoder σ β ε) (s : σ) : D.step s [] = none := by
  cases h : D.step s [] with
  | none => rfl
  | some p =>
    obtain ⟨e, t, r⟩ := p
    exact absurd (D.shortens h) (Nat.not_lt_zero _)

namespace Framing

variable {μ : Type*} (F : Framing D I μ)

/-- The stream of messages. -/
def stream (ms : List μ) : List β := ms.flatMap F.frame

theorem stream_cons (m : μ) (ms : List μ) : F.stream (m :: ms) = F.frame m ++ F.stream ms := rfl

theorem stream_take_add (ms : List μ) (n : Nat) :
    F.stream ms = F.stream (ms.take n) ++ F.stream (ms.drop n) := by
  rw [stream, stream, stream, ← List.flatMap_append, List.take_append_drop]

/-- What is left of a stream after its first `n` messages is nothing or a part of the next one. -/
def Pending (ms : List μ) (n : Nat) (rest : List β) : Prop :=
  rest = [] ∨ ∃ m ∈ (ms.drop n).head?, ∃ more, more ≠ [] ∧ rest ++ more = F.frame m

variable {F} {ms : List μ} {m : μ} {s : σ} {l rest : List β} {n : Nat}

theorem Pending.cons (h : F.Pending ms n rest) : F.Pending (m :: ms) (n + 1) rest := h

/-- What is pending at the end of a stream is nothing. -/
theorem Pending.eq_nil (h : F.Pending ms n rest) (hn : ms.length ≤ n) : rest = [] := by
  rcases h with h | ⟨m, hm, -⟩
  · exact h
  · rw [List.drop_eq_nil_of_le hn] at hm
    cases hm

/-- **A part of a stream** is decoded to the messages that are complete in it. -/
theorem decode_part (hI : I s) (hms : ∀ m ∈ ms, F.known m) (hl : l <+: F.stream ms) :
    ∃ n rest, n ≤ ms.length ∧ l = F.stream (ms.take n) ++ rest ∧ F.Pending ms n rest ∧
      D.decode s l = { emitted := (ms.take n).flatMap F.emits
                       state := (ms.take n).foldl F.next s
                       rest := rest } := by
  induction ms generalizing s l with
  | nil =>
    obtain ⟨more, hmore⟩ := hl
    obtain ⟨rfl, -⟩ := List.append_eq_nil_iff.mp hmore
    exact ⟨0, [], Nat.le_refl _, rfl, .inl rfl, Decoder.decode_none (step_nil D s)⟩
  | cons m ms ih =>
    have hm : F.known m := hms m List.mem_cons_self
    obtain ⟨more, hmore⟩ := hl
    rw [stream_cons] at hmore
    rcases List.append_eq_append_iff.mp hmore with ⟨part, hframe, hrest⟩ | ⟨part, rfl, hrest⟩
    · by_cases hpart : part = []
      · -- the frame ends with the part
        rw [hpart, List.append_nil] at hframe
        obtain ⟨n, rest, hn, hsplit, hpending, hdecode⟩ :=
          ih (l := []) (F.keeps hI hm) (fun x hx => hms x (List.mem_cons_of_mem _ hx))
            List.nil_prefix
        refine ⟨n + 1, rest, Nat.succ_le_succ hn, ?_, hpending.cons, ?_⟩
        · rw [List.take_succ_cons, stream_cons, List.append_assoc, ← hsplit, List.append_nil, hframe]
        · have hstep := F.takes hI hm []
          rw [List.append_nil, hframe] at hstep
          rw [Decoder.decode_some hstep, hdecode]
          rfl
      · refine ⟨0, l, Nat.zero_le _, rfl, ?_, Decoder.decode_none (F.waits hI hm hframe.symm hpart)⟩
        exact .inr ⟨m, rfl, part, hpart, hframe.symm⟩
    · obtain ⟨n, rest, hn, hsplit, hpending, hdecode⟩ :=
        ih (F.keeps hI hm) (fun x hx => hms x (List.mem_cons_of_mem _ hx)) ⟨more, hrest.symm⟩
      refine ⟨n + 1, rest, Nat.succ_le_succ hn, ?_, hpending.cons, ?_⟩
      · rw [List.take_succ_cons, stream_cons, List.append_assoc, ← hsplit]
      · rw [Decoder.decode_some (F.takes hI hm part), hdecode]
        rfl

end Framing

end StLib.Base.FramedStreams
