import Mathlib

/-! # Blocks laid out one behind the other

Each block goes to a region, where it starts behind the blocks that are there, at the next
multiple of its alignment. -/
namespace StLib.Base.AlignedLayout

/-! ## Alignment -/

/-- The least multiple of `a` from `x` on. -/
def alignUp (a x : Nat) : Nat := (x + a - 1) / a * a

variable {a x y : Nat}

theorem dvd_alignUp (a x : Nat) : a ∣ alignUp a x := Nat.dvd_mul_left a _

theorem le_alignUp (ha : 0 < a) : x ≤ alignUp a x := by
  have hdiv := Nat.div_add_mod (x + a - 1) a
  have hmod := Nat.mod_lt (x + a - 1) ha
  rw [alignUp, Nat.mul_comm]
  omega

/-! ## Layout -/

structure Block (ι κ : Type*) where
  index : ι
  region : κ
  align : Nat
  size : Nat

/-- Where the blocks start, and where each region is free from on. -/
structure Placed (ι κ : Type*) where
  next : κ → Nat := fun _ => 0
  offset : ι → Nat := fun _ => 0

variable {ι κ : Type*}

def Placed.start (p : Placed ι κ) (b : Block ι κ) : Nat := alignUp b.align (p.next b.region)

theorem Placed.le_start (p : Placed ι κ) {b : Block ι κ} (hb : 0 < b.align) :
    p.next b.region ≤ p.start b :=
  le_alignUp hb

variable [DecidableEq ι] [DecidableEq κ]

def Placed.add (p : Placed ι κ) (b : Block ι κ) : Placed ι κ where
  next := Function.update p.next b.region (p.start b + b.size)
  offset := Function.update p.offset b.index (p.start b)

def layout (bs : List (Block ι κ)) : Placed ι κ := bs.foldl Placed.add {}

section Add

variable (p : Placed ι κ) (b : Block ι κ)

@[simp] theorem Placed.add_next_self : (p.add b).next b.region = p.start b + b.size :=
  Function.update_self ..

theorem Placed.add_next_of_ne {r : κ} (h : r ≠ b.region) : (p.add b).next r = p.next r :=
  Function.update_of_ne h ..

@[simp] theorem Placed.add_offset_self : (p.add b).offset b.index = p.start b :=
  Function.update_self ..

theorem Placed.add_offset_of_ne {i : ι} (h : i ≠ b.index) : (p.add b).offset i = p.offset i :=
  Function.update_of_ne h ..

end Add

theorem layout_concat (bs : List (Block ι κ)) (b : Block ι κ) :
    layout (bs ++ [b]) = (layout bs).add b :=
  List.foldl_concat ..

/-- The blocks are aligned, inside their regions, and disjoint. -/
structure Sound (bs : List (Block ι κ)) (p : Placed ι κ) : Prop where
  aligned : ∀ b ∈ bs, b.align ∣ p.offset b.index
  inside : ∀ b ∈ bs, p.offset b.index + b.size ≤ p.next b.region
  disjoint : bs.Pairwise fun b c => b.region = c.region →
    p.offset b.index + b.size ≤ p.offset c.index

variable {bs cs : List (Block ι κ)} {b : Block ι κ}

theorem Placed.next_le_add (p : Placed ι κ) (hb : 0 < b.align) (r : κ) :
    p.next r ≤ (p.add b).next r := by
  by_cases hr : r = b.region
  · subst hr
    rw [p.add_next_self]
    exact Nat.le_add_right_of_le (p.le_start hb)
  · rw [p.add_next_of_ne b hr]

/-- **Layout.** Blocks with indices of their own are laid out soundly. -/
theorem layout_sound (bs : List (Block ι κ)) (hpos : ∀ b ∈ bs, 0 < b.align)
    (hd : (bs.map Block.index).Nodup) : Sound bs (layout bs) := by
  induction bs using List.reverseRecOn with
  | nil => exact ⟨nofun, nofun, .nil⟩
  | append_singleton bs b ih =>
    rw [List.map_append, List.nodup_append] at hd
    obtain ⟨hnodup, -, hne⟩ := hd
    obtain ⟨haligned, hinside, hdisjoint⟩ := ih (fun c hc => hpos c (List.mem_append_left _ hc)) hnodup
    have hb : 0 < b.align := hpos b (by simp)
    have hkeep : ∀ c ∈ bs, ((layout bs).add b).offset c.index = (layout bs).offset c.index :=
      fun c hc => Placed.add_offset_of_ne _ _ (hne _ (List.mem_map_of_mem hc) _ (by simp))
    have hnew := (layout bs).add_offset_self b
    rw [layout_concat]
    refine ⟨?_, ?_, ?_⟩
    · refine List.forall_mem_append.mpr ⟨fun c hc => ?_, List.forall_mem_singleton.mpr ?_⟩
      · rw [hkeep c hc]
        exact haligned c hc
      · rw [hnew]
        exact dvd_alignUp ..
    · refine List.forall_mem_append.mpr ⟨fun c hc => ?_, List.forall_mem_singleton.mpr ?_⟩
      · rw [hkeep c hc]
        exact (hinside c hc).trans ((layout bs).next_le_add hb _)
      · rw [hnew]
        exact Nat.le_of_eq ((layout bs).add_next_self b).symm
    · refine List.pairwise_append.mpr ⟨?_, List.pairwise_singleton .., ?_⟩
      · refine hdisjoint.imp_of_mem fun {c d} hc hd h hr => ?_
        rw [hkeep c hc, hkeep d hd]
        exact h hr
      · intro c hc d hd hr
        obtain rfl := List.mem_singleton.mp hd
        rw [hkeep c hc, hnew]
        exact (hr ▸ hinside c hc).trans ((layout bs).le_start hb)

omit [DecidableEq ι] [DecidableEq κ] in
/-- Of two blocks of one region one ends before the other starts. -/
theorem Sound.disjoint_of_ne {p : Placed ι κ} {c : Block ι κ} (h : Sound bs p) (hb : b ∈ bs)
    (hc : c ∈ bs) (hne : b ≠ c) (hr : b.region = c.region) :
    p.offset b.index + b.size ≤ p.offset c.index ∨ p.offset c.index + c.size ≤ p.offset b.index := by
  let R : Block ι κ → Block ι κ → Prop := fun b c => b.region = c.region →
    p.offset b.index + b.size ≤ p.offset c.index ∨ p.offset c.index + c.size ≤ p.offset b.index
  have hsymm : Std.Symm R := ⟨fun _ _ hbc hr => (hbc hr.symm).symm⟩
  have hpair : bs.Pairwise R := h.disjoint.imp fun hbc hr => .inl (hbc hr)
  exact hpair.forall hb hc hne hr

theorem layout_next_mono (bs cs : List (Block ι κ)) (hpos : ∀ b ∈ bs ++ cs, 0 < b.align) (r : κ) :
    (layout bs).next r ≤ (layout (bs ++ cs)).next r := by
  induction cs using List.reverseRecOn with
  | nil => rw [List.append_nil]
  | append_singleton cs c ih =>
    rw [← List.append_assoc] at hpos ⊢
    rw [layout_concat]
    exact (ih fun b hb => hpos b (List.mem_append_left _ hb)).trans
      (Placed.next_le_add _ (hpos c (by simp)) r)

/-- The first block that reaches beyond a limit. -/
theorem exists_first_beyond {limit : Nat} (bs : List (Block ι κ)) {r : κ}
    (h : limit < (layout bs).next r) :
    ∃ pre b post, bs = pre ++ b :: post ∧ (∀ r, (layout pre).next r ≤ limit) ∧
      limit < (layout pre).start b + b.size := by
  induction bs using List.reverseRecOn generalizing r with
  | nil => exact absurd h (Nat.not_lt_zero _)
  | append_singleton bs b ih =>
    by_cases hbefore : ∃ r, limit < (layout bs).next r
    · obtain ⟨r, hr⟩ := hbefore
      obtain ⟨pre, c, post, rfl, hpre, hc⟩ := ih hr
      exact ⟨pre, c, post ++ [b], by simp, hpre, hc⟩
    · have hle : ∀ r, (layout bs).next r ≤ limit := fun r =>
        Nat.le_of_not_lt fun hlt => hbefore ⟨r, hlt⟩
      refine ⟨bs, b, [], rfl, hle, ?_⟩
      rw [layout_concat] at h
      by_cases hr : r = b.region
      · subst hr
        rwa [Placed.add_next_self] at h
      · rw [Placed.add_next_of_ne _ _ hr] at h
        exact absurd h (Nat.not_lt_of_le (hle r))

end StLib.Base.AlignedLayout
