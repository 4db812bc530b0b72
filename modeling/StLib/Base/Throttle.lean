import Mathlib

/-! # A throttle that keeps the last tick

A tick is let through unless less than a delay has passed since the last one that was. That
last tick is kept in one word, which is zero at the start: a tick of zero that is let
through is forgotten. Ticks that do not decrease get through at least the delay apart,
unless the first is zero and the second comes within the delay (`passed_spaced_iff`). -/
namespace StLib.Base.Throttle

variable {w : Nat} (delay : BitVec w)

/-- Any two of the ticks are at least the delay apart. -/
def Spaced (l : List (BitVec w)) : Prop :=
  l.Pairwise fun a b => a.toNat + delay.toNat ≤ b.toNat

/-- The last tick let through, and all that were. -/
def letThrough (s : BitVec w × List (BitVec w)) (tick : BitVec w) : BitVec w × List (BitVec w) :=
  if s.1 ≠ 0#w ∧ tick - s.1 < delay then s else (tick, s.2 ++ [tick])

def passed (ts : List (BitVec w)) : List (BitVec w) :=
  (ts.foldl (letThrough delay) (0#w, [])).2

/-- The first two ticks are zero and one within the delay of it. -/
def Forgets (ts : List (BitVec w)) : Prop :=
  ∃ t rest, ts = 0#w :: t :: rest ∧ t < delay

/-- The last tick is remembered, and none is later. -/
structure Remembers (s : BitVec w × List (BitVec w)) : Prop where
  nonzero : s.1 ≠ 0#w
  spaced : Spaced delay s.2
  latest : ∀ a ∈ s.2, a ≤ s.1

variable {delay}

theorem letThrough_remembers {s : BitVec w × List (BitVec w)} {tick : BitVec w}
    (h : Remembers delay s) (hle : s.1 ≤ tick) :
    Remembers delay (letThrough delay s tick) ∧ (letThrough delay s tick).1 ≤ tick := by
  unfold letThrough
  split
  next => exact ⟨h, hle⟩
  next hdue =>
    have hge : delay ≤ tick - s.1 := BitVec.not_lt.mp fun hlt => hdue ⟨h.nonzero, hlt⟩
    have hsub : (tick - s.1).toNat = tick.toNat - s.1.toNat := BitVec.toNat_sub_of_le hle
    have hlast : s.1.toNat + delay.toNat ≤ tick.toNat := by
      have := BitVec.le_def.mp hge
      have := BitVec.le_def.mp hle
      omega
    refine ⟨⟨fun h0 => h.nonzero ?_, ?_, ?_⟩, BitVec.le_refl tick⟩
    · dsimp only at h0
      exact BitVec.le_zero_iff.mp (h0 ▸ hle)
    · refine List.pairwise_append.mpr ⟨h.spaced, List.pairwise_singleton _ _, ?_⟩
      intro a ha b hb
      rw [List.mem_singleton.mp hb]
      have := BitVec.le_def.mp (h.latest a ha)
      omega
    · intro a ha
      rcases List.mem_append.mp ha with ha | ha
      · exact BitVec.le_trans (h.latest a ha) hle
      · rw [List.mem_singleton.mp ha]
        exact BitVec.le_refl tick

/-- Once a tick is remembered the throttle keeps the delay. -/
theorem foldl_spaced : ∀ {ts : List (BitVec w)} {s : BitVec w × List (BitVec w)},
    Remembers delay s → (∀ t ∈ ts, s.1 ≤ t) → ts.Pairwise (· ≤ ·) →
    Spaced delay (ts.foldl (letThrough delay) s).2
  | [], _, h, _, _ => h.spaced
  | t :: ts, s, h, hle, hord => by
    obtain ⟨ht, hts⟩ := List.pairwise_cons.mp hord
    obtain ⟨hnext, hlast⟩ := letThrough_remembers h (hle t List.mem_cons_self)
    rw [List.foldl_cons]
    exact foldl_spaced hnext (fun u hu => BitVec.le_trans hlast (ht u hu)) hts

theorem foldl_extends (ts : List (BitVec w)) (s : BitVec w × List (BitVec w)) :
    s.2 <+: (ts.foldl (letThrough delay) s).2 := by
  induction ts generalizing s with
  | nil => exact List.prefix_refl _
  | cons t ts ih =>
    refine List.IsPrefix.trans ?_ (ih _)
    unfold letThrough
    split
    · exact List.prefix_refl _
    · exact List.prefix_append _ _

/-- **When the throttle keeps the delay.** -/
theorem passed_spaced_iff (hdelay : delay ≠ 0#w) {ts : List (BitVec w)}
    (hord : ts.Pairwise (· ≤ ·)) : Spaced delay (passed delay ts) ↔ ¬ Forgets delay ts := by
  have hfirst : ∀ (log : List (BitVec w)) t, letThrough delay (0#w, log) t = (t, log ++ [t]) :=
    fun _ _ => if_neg fun h => h.1 rfl
  have hone : ∀ t : BitVec w, Spaced delay [t] := fun _ => List.pairwise_singleton _ _
  unfold passed
  cases ts with
  | nil => exact ⟨fun _ ⟨_, _, h, _⟩ => (List.cons_ne_nil _ _ h.symm).elim, fun _ => .nil⟩
  | cons t ts =>
    obtain ⟨ht, hts⟩ := List.pairwise_cons.mp hord
    rw [List.foldl_cons, hfirst, List.nil_append]
    by_cases h0 : t = 0#w
    · subst h0
      cases ts with
      | nil => exact ⟨fun _ ⟨_, _, h, _⟩ => absurd (List.cons.inj h).2 nofun, fun _ => hone _⟩
      | cons u ts =>
        obtain ⟨hu, hrest⟩ := List.pairwise_cons.mp hts
        -- the zero is forgotten, so the second tick gets through at any distance
        rw [List.foldl_cons, hfirst]
        have hforgets : Forgets delay (0#w :: u :: ts) ↔ u < delay := by
          constructor
          · rintro ⟨_, _, h, hlt⟩
            obtain ⟨rfl, -⟩ := List.cons.inj (List.cons.inj h).2
            exact hlt
          · exact fun hlt => ⟨u, ts, rfl, hlt⟩
        rw [hforgets, BitVec.not_lt]
        constructor
        · intro hspaced
          have htwo := hspaced.sublist (foldl_extends ts (u, [0#w] ++ [u])).sublist
          have := List.rel_of_pairwise_cons htwo (List.mem_singleton.mpr rfl)
          rw [BitVec.toNat_zero, Nat.zero_add] at this
          exact BitVec.le_def.mpr this
        · intro hge
          have hne : u ≠ 0#w := fun hu0 => hdelay (BitVec.le_zero_iff.mp (hu0 ▸ hge))
          refine foldl_spaced ⟨hne, ?_, ?_⟩ hu hrest
          · refine List.pairwise_cons.mpr ⟨fun b hb => ?_, hone u⟩
            rw [List.mem_singleton.mp hb, BitVec.toNat_zero, Nat.zero_add]
            exact BitVec.le_def.mp hge
          · intro a ha
            rcases List.mem_cons.mp ha with rfl | ha
            · exact ht u List.mem_cons_self
            · rw [List.mem_singleton.mp ha]
              exact BitVec.le_refl u
    · have hforgets : ¬ Forgets delay (t :: ts) := fun ⟨_, _, h, _⟩ => h0 (List.cons.inj h).1
      refine iff_of_true (foldl_spaced ⟨h0, hone t, fun a ha => ?_⟩ ht hts) hforgets
      rw [List.mem_singleton.mp ha]
      exact BitVec.le_refl t

end StLib.Base.Throttle
