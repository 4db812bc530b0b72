import StLib.Dfsdm.Build

/-! # The buffers of the filters

The slices that `build` gives to the channels of a filter, the buffers that
`calculate_buffer_sizes` makes for them, and which filters have a regular channel beside
others. -/
namespace StLib.Dfsdm.BufferSlices

open StLib.Dfsdm.Model StLib.Dfsdm.Build

/-! ## What is claimed -/

/-- The slices of a filter follow each other in the order of the channels, and end in its
buffer. -/
structure SlicesRight (cfgs : List Config) : Prop where
  ordered : ∀ c ∈ cfgs, ∀ c' ∈ cfgs, c.filter = c'.filter → c.channel < c'.channel →
    c.bufferPosIni + c.bufferSize ≤ c'.bufferPosIni
  inside : ∀ c ∈ cfgs, c.bufferPosIni + c.bufferSize ≤ bufferSizes cfgs c.filter

/-- A filter with a regular channel has another channel. -/
def SharedRegular (es : List Entry) : Prop :=
  ∃ e ∈ es, e.configFilter.typeConv = .regular ∧
    ∃ e' ∈ es, e'.filter = e.filter ∧ e'.channel ≠ e.channel

def Right (es : List Entry) : Prop :=
  (∀ cfgs, build es = some cfgs → SlicesRight cfgs) ∧ (SharedRegular es → build es = none)

/-- All the sizes of a filter. -/
def total (es : List Entry) (f : Fin 4) : Nat := below es f 8

/-- Of a list that passes the other checks: a filter with a regular channel beside others is
seen as such at a regular channel; or, where there is none, the channels below each one take
less than 256 samples of its filter, and all of them what a size can be. -/
def Meets (es : List Entry) : Prop :=
  Accepts es → DmaUnits es →
    (SharedRegular es → ¬ RegularAlone es) ∧
      (¬ SharedRegular es → ∀ e ∈ es, below es e.filter e.channel < 256 ∧
        total es e.filter < sizeLimit)

/-! ## Sizes -/

variable {es : List Entry} {e e' : Entry} {f : Fin 4} {cfgs : List Config}

theorem sizeOn_eq (ha : Accepts es) (he : e ∈ es) :
    sizeOn es e.filter e.channel = e.bufferSize := by
  rw [sizeOn_of_mem ha.nodup he, if_pos rfl]

/-- What is below a channel ends with a channel of the filter, if there is any. -/
theorem below_cases (ha : Accepts es) (f : Fin 4) : ∀ n ≤ 8, below es f n = 0 ∨
    ∃ e ∈ es, e.filter = f ∧ e.channel.val < n ∧
      below es f n = below es f e.channel + e.bufferSize := by
  intro n
  induction n with
  | zero => exact fun _ => .inl (by simp [below])
  | succ n ih =>
    intro hn
    let c : Fin 8 := ⟨n, hn⟩
    have hsucc : below es f (n + 1) = below es f n + sizeOn es f c := below_succ es f c
    by_cases hc : ∃ e ∈ es, e.filter = f ∧ e.channel = c
    · obtain ⟨e, he, rfl, hchannel⟩ := hc
      refine .inr ⟨e, he, rfl, by rw [hchannel]; exact Nat.lt_succ_self n, ?_⟩
      rw [hsucc, ← sizeOn_eq ha he, hchannel]
    · have hzero : sizeOn es f c = 0 := by
        unfold sizeOn
        rw [List.find?_eq_none.mpr fun e he hboth => hc ⟨e, he, of_decide_eq_true hboth⟩]
        rfl
      rw [hsucc, hzero, Nat.add_zero]
      rcases ih (Nat.le_of_succ_le hn) with h0 | ⟨e, he, hf, hlt, hbelow⟩
      · exact .inl h0
      · exact .inr ⟨e, he, hf, Nat.lt_succ_of_lt hlt, hbelow⟩

/-- A channel ends before a higher one of the filter. -/
theorem below_add_le (ha : Accepts es) (he : e ∈ es) {n : Nat} (hn : e.channel.val < n) :
    below es e.filter e.channel + e.bufferSize ≤ below es e.filter n := by
  rw [← sizeOn_eq ha he, ← below_succ]
  exact below_mono es e.filter hn

/-- All the sizes of a filter, from the list. -/
theorem sum_group (ha : Accepts es) (f : Fin 4) :
    ((group es f).map Entry.bufferSize).sum = total es f := by
  have hnodup : ((group es f).map Entry.channel).Nodup :=
    ha.nodup.sublist (List.filter_sublist.map _)
  have hsize : ∀ e ∈ group es f, e.bufferSize = sizeOn es f e.channel := by
    intro e he
    obtain ⟨hmem, hfilter⟩ := List.mem_filter.mp he
    rw [← of_decide_eq_true hfilter, sizeOn_eq ha hmem]
  have hall : (Finset.univ.filter fun d : Fin 8 => d.val < 8) = Finset.univ := by decide
  rw [List.map_congr_left hsize, total, below, hall, ← Function.comp_def, ← List.map_map,
    ← List.sum_toFinset _ hnodup]
  refine Finset.sum_subset (Finset.subset_univ _) fun c _ hc => ?_
  unfold sizeOn
  rw [List.find?_eq_none.mpr]
  · rfl
  · intro e he hboth
    obtain ⟨hf, hchannel⟩ := of_decide_eq_true hboth
    refine hc (List.mem_toFinset.mpr (List.mem_map.mpr ⟨e, ?_, hchannel⟩))
    exact List.mem_filter.mpr ⟨he, decide_eq_true hf⟩

/-! ## Buffers -/

/-- A buffer after one more channel. -/
def grow (n : Nat) (t : TypeConversion) (size : Nat) : Nat :=
  match t with
  | .regular => max size n
  | .injected => (n + size) % sizeLimit

theorem calculateBufferSizes_apply (f : Fin 4) : ∀ (cfgs : List Config) (sizes : Fin 4 → Nat),
    calculateBufferSizes cfgs sizes f =
      (cfgs.filter fun c => c.filter = f).foldl (fun n c => grow n c.typeConv c.bufferSize) (sizes f)
  | [], sizes => rfl
  | c :: rest, sizes => by
    rw [calculateBufferSizes, calculateBufferSizes_apply f rest]
    by_cases hc : c.filter = f
    · subst hc
      rw [Function.update_self, List.filter_cons_of_pos (by simp), List.foldl_cons]
      rfl
    · rw [Function.update_of_ne (Ne.symm hc), List.filter_cons_of_neg (by simpa using hc)]

theorem bufferSizes_build (h : build es = some cfgs) (f : Fin 4) :
    bufferSizes cfgs f =
      (group es f).foldl (fun n e => grow n e.configFilter.typeConv e.bufferSize) 0 := by
  have hkeys := map_build h (fun c => (c.filter, c.typeConv, c.bufferSize))
    (fun e => (e.filter, e.configFilter.typeConv, e.bufferSize))
    (fun e c hd => by rw [hd.filter, hd.typeConv, hd.bufferSize])
  have hfiltered := congrArg
    (fun l => (l.filter fun x : Fin 4 × TypeConversion × Nat => x.1 = f).foldl
      (fun n x => grow n x.2.1 x.2.2) 0) hkeys
  simp only [List.filter_map, List.foldl_map] at hfiltered
  rw [bufferSizes, calculateBufferSizes_apply]
  exact hfiltered

theorem foldl_grow_injected : ∀ (l : List Entry) (n : Nat), n < sizeLimit →
    (∀ e ∈ l, e.configFilter.typeConv = .injected) →
      l.foldl (fun n e => grow n e.configFilter.typeConv e.bufferSize) n =
        (n + (l.map Entry.bufferSize).sum) % sizeLimit
  | [], n, hn, _ => by simp [Nat.mod_eq_of_lt hn]
  | e :: l, n, _, hl => by
    have hpos : 0 < sizeLimit := by decide
    rw [List.foldl_cons, foldl_grow_injected l _ ?_ fun a ha => hl a (List.mem_cons_of_mem e ha),
      hl e List.mem_cons_self, List.map_cons, List.sum_cons]
    · show ((n + e.bufferSize) % sizeLimit + _) % sizeLimit = _
      rw [Nat.mod_add_mod, Nat.add_assoc]
    · rw [hl e List.mem_cons_self]
      exact Nat.mod_lt _ hpos

theorem foldl_grow_lt : ∀ (l : List Entry) (n : Nat), n < sizeLimit →
    l.foldl (fun n e => grow n e.configFilter.typeConv e.bufferSize) n < sizeLimit
  | [], _, hn => hn
  | e :: l, n, hn => by
    have hpos : 0 < sizeLimit := by decide
    refine foldl_grow_lt l _ ?_
    show grow n e.configFilter.typeConv e.bufferSize < sizeLimit
    cases e.configFilter.typeConv with
    | regular => exact max_lt e.fits hn
    | injected => exact Nat.mod_lt _ hpos

/-- A filter is of injected channels, or has one channel. -/
theorem group_cases (ha : Accepts es) (hs : ¬ SharedRegular es) (f : Fin 4) :
    (∀ e ∈ group es f, e.configFilter.typeConv = .injected) ∨ ∃ e, group es f = [e] := by
  by_cases hr : ∃ e ∈ group es f, e.configFilter.typeConv = .regular
  · obtain ⟨e, he, hregular⟩ := hr
    obtain ⟨hmem, hf⟩ := List.mem_filter.mp he
    have hsame : ∀ a ∈ group es f, a.channel = e.channel := by
      intro a hag
      obtain ⟨hamem, haf⟩ := List.mem_filter.mp hag
      by_contra hne
      exact hs ⟨e, hmem, hregular, a, hamem,
        (of_decide_eq_true haf).trans (of_decide_eq_true hf).symm, hne⟩
    have hnodup : ((group es f).map Entry.channel).Nodup :=
      ha.nodup.sublist (List.filter_sublist.map _)
    right
    match hg : group es f with
    | [] => rw [hg] at he; cases he
    | [a] => exact ⟨a, rfl⟩
    | a :: b :: l =>
      rw [hg] at hnodup hsame
      have hab : a.channel = b.channel := (hsame a (by simp)).trans (hsame b (by simp)).symm
      exact absurd (by simp [hab]) (List.nodup_cons.mp hnodup).1
  · left
    intro e he
    cases ht : e.configFilter.typeConv with
    | regular => exact absurd ⟨e, he, ht⟩ hr
    | injected => rfl

/-- The buffer of a filter holds all its sizes, if a size can. -/
theorem bufferSizes_eq_total (h : build es = some cfgs) (hs : ¬ SharedRegular es)
    (ht : total es f < sizeLimit) : bufferSizes cfgs f = total es f := by
  have ha := (of_build h).1.1
  rw [bufferSizes_build h, ← sum_group ha]
  rw [← sum_group ha] at ht
  rcases group_cases ha hs f with hinjected | ⟨e, he⟩
  · rw [foldl_grow_injected _ 0 (by decide) hinjected, Nat.zero_add, Nat.mod_eq_of_lt ht]
  · rw [he]
    have hfits := e.fits
    show grow 0 _ _ = e.bufferSize + 0
    cases e.configFilter.typeConv with
    | regular => exact Nat.max_zero _
    | injected => exact (congrArg (· % sizeLimit) (Nat.zero_add _)).trans (Nat.mod_eq_of_lt hfits)

/-! ## Slices -/

theorem slicesRight_of_fits (h : build es = some cfgs) (hs : ¬ SharedRegular es)
    (hfits : ∀ e ∈ es, below es e.filter e.channel < 256 ∧ total es e.filter < sizeLimit) :
    SlicesRight cfgs := by
  have ha := (of_build h).1.1
  constructor
  · intro c hc c' hc' hf hlt
    obtain ⟨e, he, hd⟩ := describes_of_mem h hc
    obtain ⟨e', he', hd'⟩ := describes_of_mem h hc'
    have hfe : e.filter = e'.filter := hd.filter.symm.trans (hf.trans hd'.filter)
    rw [hd.channel, hd'.channel] at hlt
    rw [hd.bufferPosIni, hd'.bufferPosIni, hd.bufferSize, Nat.mod_eq_of_lt (hfits e he).1,
      Nat.mod_eq_of_lt (hfits e' he').1, ← hfe]
    exact below_add_le ha he hlt
  · intro c hc
    obtain ⟨e, he, hd⟩ := describes_of_mem h hc
    rw [hd.bufferPosIni, hd.bufferSize, hd.filter, bufferSizes_eq_total h hs (hfits e he).2,
      Nat.mod_eq_of_lt (hfits e he).1]
    exact below_add_le ha he e.channel.isLt

/-- Slices that follow each other start where the sizes say. -/
theorem below_lt_of_ordered (h : build es = some cfgs) (hright : SlicesRight cfgs) :
    ∀ n, ∀ e ∈ es, e.channel.val = n → below es e.filter e.channel < 256 := by
  have ha := (of_build h).1.1
  intro n
  induction n using Nat.strong_induction_on with
  | _ n ih =>
    intro e he hn
    rcases below_cases ha e.filter e.channel (Nat.le_of_lt e.channel.isLt) with
      h0 | ⟨e', he', hf, hlt, hbelow⟩
    · rw [h0]
      decide
    · have hprev := ih e'.channel.val (hn ▸ hlt) e' he' rfl
      obtain ⟨c, hc, hd⟩ := exists_describes h he
      obtain ⟨c', hc', hd'⟩ := exists_describes h he'
      have hordered := hright.ordered c' hc' c hc (hd'.filter.trans (hf.trans hd.filter.symm))
        (by rw [hd'.channel, hd.channel]; exact hlt)
      rw [hd'.bufferPosIni, hd.bufferPosIni, hd'.bufferSize, hf] at hordered
      rw [hf] at hprev
      rw [Nat.mod_eq_of_lt hprev, ← hbelow] at hordered
      exact Nat.lt_of_le_of_lt hordered (Nat.mod_lt _ (by decide))

theorem fits_of_slicesRight (h : build es = some cfgs) (hright : SlicesRight cfgs) (he : e ∈ es) :
    below es e.filter e.channel < 256 ∧ total es e.filter < sizeLimit := by
  have ha := (of_build h).1.1
  have hbelow := below_lt_of_ordered h hright
  refine ⟨hbelow _ e he rfl, ?_⟩
  rcases below_cases ha e.filter 8 (Nat.le_refl 8) with h0 | ⟨e', he', hf, -, htop⟩
  · rw [total, h0]
    decide
  · obtain ⟨c', hc', hd'⟩ := exists_describes h he'
    have hinside := hright.inside c' hc'
    rw [hd'.bufferPosIni, Nat.mod_eq_of_lt (hbelow _ e' he' rfl), hd'.bufferSize, hd'.filter, hf,
      ← htop] at hinside
    refine Nat.lt_of_le_of_lt hinside ?_
    rw [bufferSizes_build h]
    exact foldl_grow_lt _ 0 (by decide)

/-- A regular channel that is the only one of its filter passes the check. -/
theorem regularAlone (ha : Accepts es) (hs : ¬ SharedRegular es) : RegularAlone es := by
  intro ps e rs hsplit hregular
  have hsub : (active (ps ++ [e]) e.filter).Sublist (group es e.filter) := by
    have hes : (ps ++ [e]).Sublist es := by
      rw [hsplit, List.append_cons ps e rs]
      exact List.sublist_append_left _ _
    exact List.filter_sublist.trans (hes.filter _)
  have hmem : e ∈ group es e.filter := by
    refine List.mem_filter.mpr ⟨?_, by simp⟩
    rw [hsplit]
    simp
  rcases group_cases ha hs e.filter with hinjected | ⟨a, hone⟩
  · rw [hinjected e hmem] at hregular
    cases hregular
  · rw [hone] at hsub
    exact hsub.length_le

/-- The third channel of the filter starts at 300, which is 44 in `buffer_pos`. -/
def largeBuffers : List Entry :=
  [{ configFilter := { typeConv := .injected }, channel := 0, bufferSize := 200 },
    { configFilter := { typeConv := .injected }, channel := 1, bufferSize := 100 },
    { configFilter := { typeConv := .injected }, channel := 2, bufferSize := 1, fits := one_lt_sizeLimit }]

/-- The check of a regular channel does not see a size of 256. -/
example : SharedRegular [
      { configFilter := {}, channel := 0, bufferSize := 256 },
      { configFilter := {}, channel := 1, bufferSize := 1 }] ∧
    build [{ configFilter := {}, channel := 0, bufferSize := 256 },
      { configFilter := {}, channel := 1, bufferSize := 1 }] ≠ none :=
  ⟨⟨_, List.mem_cons_self, rfl, _, List.mem_cons_of_mem _ List.mem_cons_self, rfl, by decide⟩,
    by decide⟩

end StLib.Dfsdm.BufferSlices
