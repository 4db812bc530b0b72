import StLib.Dfsdm.Build

/-! # The registers of a filter after `Init::init`

The first configuration of each filter is the one that is programmed. -/
namespace StLib.Dfsdm.FilterGroups

open StLib.Base.RegisterBits StLib.Dfsdm.Model StLib.Dfsdm.Build

/-! ## `Init::init` -/

def fltcr1Dfen : Word := bit 0

def fltcr1RchMsk : Word := 0x7 <<< 24

/-- The registers of a filter after a reset. -/
def afterReset : FilterConfig := { fltjchgr := 1 }

/-- What a configuration programs into the registers of its filter. -/
def program (cfg : Config) (r : FilterConfig) : FilterConfig :=
  let fltcr1 := r.fltcr1 ||| cfg.initDataFilter.fltcr1
  { fltcr1 :=
      match cfg.typeConv with
      | .regular => clearBit fltcr1 fltcr1RchMsk ||| BitVec.ofNat 32 cfg.channel <<< 24
      | .injected => fltcr1
    fltcr2 := r.fltcr2 ||| cfg.initDataFilter.fltcr2
    fltfcr := r.fltfcr ||| cfg.initDataFilter.fltfcr
    fltawhtr := r.fltawhtr ||| cfg.initDataFilter.fltawhtr
    fltawltr := r.fltawltr ||| cfg.initDataFilter.fltawltr
    fltjchgr := cfg.initDataFilter.fltjchgr }

/-- The registers of the four filters. -/
abbrev Filters := Fin 4 → FilterConfig

def disableFilters : List Config → Filters → Filters
  | [], hw => hw
  | cfg :: rest, hw =>
    disableFilters rest (Function.update hw cfg.filter
      { hw cfg.filter with fltcr1 := clearBit (hw cfg.filter).fltcr1 fltcr1Dfen })

/-- `configured` is `filters_configured`. -/
def programFilters : List Config → (Fin 4 → Bool) → Filters → (Fin 4 → Bool) × Filters
  | [], configured, hw => (configured, hw)
  | cfg :: rest, configured, hw =>
    if configured cfg.filter then programFilters rest configured hw
    else
      programFilters rest (Function.update configured cfg.filter true)
        (Function.update hw cfg.filter (program cfg (hw cfg.filter)))

def init (cfgs : List Config) (hw : Filters) : Filters :=
  let (configured, hw) := programFilters cfgs (fun _ => false) (disableFilters cfgs hw)
  fun f =>
    if configured f then { hw f with fltcr1 := setBit (hw f).fltcr1 fltcr1Dfen } else hw f

/-! ## What is claimed -/

/-- The groups of a filter are what its channels in the list ask for. -/
structure GroupsRight (es : List Entry) (f : Fin 4) (r : FilterConfig) : Prop where
  injected : ∀ k, r.fltjchgr.getLsbD k = true ↔
    ∃ e ∈ group es f, e.configFilter.typeConv = .injected ∧ k = e.channel.val
  watchdogs : ∀ c : Fin 8, r.fltcr2.getLsbD (fltcr2AwdchPos + c) = true ↔
    ∃ e ∈ group es f, e.configFilter.watchdog = true ∧ c = e.channel
  extremes : ∀ c : Fin 8, r.fltcr2.getLsbD (fltcr2ExchPos + c) = true ↔
    ∃ e ∈ group es f, e.extremeDetector = true ∧ c = e.channel
  enables : ∀ k < 8, r.fltcr2.getLsbD k = true ↔
    ∃ e ∈ group es f, e.config.initDataFilter.fltcr2.getLsbD k = true

/-- The claim for a list: the filters it uses are right. -/
def Right (es : List Entry) (hw : Filters) : Prop :=
  ∀ f, group es f ≠ [] → GroupsRight es f (hw f)

/-- An entry puts its channel into a group of its filter. -/
def Requests (e : Entry) : Prop :=
  e.configFilter.typeConv = .injected ∨ e.configFilter.watchdog = true ∨ e.extremeDetector = true

/-- From the third channel of a filter on, none asks for a group. -/
def Meets (es : List Entry) : Prop := ∀ f, ∀ e ∈ (group es f).drop 2, ¬ Requests e

/-! ## The registers -/

variable {es : List Entry} {e : Entry} {f : Fin 4} {cfgs : List Config}

theorem disableFilters_apply (f : Fin 4) : ∀ (cfgs : List Config) (hw : Filters),
    (disableFilters cfgs hw f).fltcr2 = (hw f).fltcr2
  | [], _ => rfl
  | cfg :: rest, hw => by
    rw [disableFilters, disableFilters_apply f rest]
    by_cases hf : f = cfg.filter
    · subst hf
      rw [Function.update_self]
    · rw [Function.update_of_ne hf]

/-- The first configuration of a filter is programmed. -/
theorem programFilters_apply (f : Fin 4) : ∀ (cfgs : List Config) (configured : Fin 4 → Bool)
    (hw : Filters), (programFilters cfgs configured hw).2 f =
      if configured f then hw f
      else ((cfgs.find? fun c => c.filter = f).map fun c => program c (hw f)).getD (hw f)
  | [], configured, hw => by simp [programFilters]
  | cfg :: rest, configured, hw => by
    unfold programFilters
    by_cases hf : cfg.filter = f
    · subst hf
      by_cases hc : configured cfg.filter = true
      · rw [if_pos hc, if_pos hc, programFilters_apply, if_pos hc]
      · rw [if_neg hc, if_neg hc, programFilters_apply, Function.update_self, if_pos rfl,
          Function.update_self, List.find?_cons_of_pos (by simp)]
        rfl
    · rw [List.find?_cons_of_neg (by simpa using hf)]
      split
      · rw [programFilters_apply]
      · rw [programFilters_apply, Function.update_of_ne (Ne.symm hf),
          Function.update_of_ne (Ne.symm hf)]

theorem init_apply {c : Config} (h : (cfgs.find? fun c => c.filter = f) = some c) (hw : Filters) :
    (init cfgs hw f).fltcr2 = (hw f).fltcr2 ||| c.initDataFilter.fltcr2 ∧
      (init cfgs hw f).fltjchgr = c.initDataFilter.fltjchgr := by
  have hprogram : (programFilters cfgs (fun _ => false) (disableFilters cfgs hw)).2 f =
      program c (disableFilters cfgs hw f) := by
    rw [programFilters_apply, if_neg Bool.false_ne_true, h]
    rfl
  have hinit : (init cfgs hw f).fltcr2 = (program c (disableFilters cfgs hw f)).fltcr2 ∧
      (init cfgs hw f).fltjchgr = (program c (disableFilters cfgs hw f)).fltjchgr := by
    unfold init
    dsimp only
    rw [hprogram]
    split
    · exact ⟨rfl, rfl⟩
    · exact ⟨rfl, rfl⟩
  refine ⟨hinit.1.trans ?_, hinit.2⟩
  show (disableFilters cfgs hw f).fltcr2 ||| _ = _
  rw [disableFilters_apply]

/-- The first configuration of a filter has the masks of its first two channels. -/
theorem first_masks (h : build es = some cfgs) (hf : group es f ≠ []) :
    ∃ c, (cfgs.find? fun c => c.filter = f) = some c ∧ HasMasks c ((group es f).take 2) := by
  obtain ⟨-, b, hb, hcfgs⟩ := of_build h
  obtain ⟨i, hi⟩ := Option.ne_none_iff_exists'.mp (mt group_eq_nil_iff.mpr hf)
  have hmasks := hb.first f i hi
  obtain ⟨hlt, hei, hbefore⟩ := List.findIdx?_eq_some_iff_getElem.mp hi
  have hlength := length_build h
  have hfilter : ∀ (j : Nat) (hj : j < es.length) (_ : j < cfgs.length),
      cfgs[j].filter = es[j].filter := by
    intro j hj _
    obtain ⟨c, hl, hc⟩ := getElem?_build h (List.getElem?_eq_getElem hj)
    obtain ⟨_, hget⟩ := List.getElem?_eq_some_iff.mp hc
    rw [hget]
    exact hl.filter
  have hci := hcfgs i
  rw [List.getElem?_eq_getElem hlt, Option.map_some] at hci
  obtain ⟨hlt', hget⟩ := List.getElem?_eq_some_iff.mp hci
  refine ⟨cfgs[i], List.find?_eq_some_iff_getElem.mpr ⟨?_, i, hlt', rfl, fun j hj => ?_⟩, ?_⟩
  · exact decide_eq_true ((hfilter i hlt hlt').trans (of_decide_eq_true hei))
  · rw [hfilter j (by omega) (by omega)]
    simpa using hbefore j hj
  · rw [hget]
    exact ⟨hmasks.fltjchgr, hmasks.fltcr2⟩

/-! ## The bits -/

theorem getLsbD_union (l : List Word) (k : Nat) :
    (union l).getLsbD k = true ↔ ∃ x ∈ l, x.getLsbD k = true := by
  induction l with
  | nil => simp [union]
  | cons x l ih => simp [union, ih]

theorem getLsbD_fltjchgr (e : Entry) (k : Nat) :
    e.config.initDataFilter.fltjchgr.getLsbD k = true ↔
      e.configFilter.typeConv = .injected ∧ k = e.channel.val := by
  have hlt : e.channel.val < 32 := by omega
  show (if e.configFilter.typeConv = .injected then bit e.channel else 0 : Word).getLsbD k = true ↔ _
  by_cases h : e.configFilter.typeConv = .injected
  · rw [if_pos h, getLsbD_bit hlt, decide_eq_true_eq, and_iff_right h]
  · rw [if_neg h]
    simp [h]

theorem getLsbD_ite_or (p : Prop) [Decidable p] (v x : Word) (k : Nat) :
    (if p then v ||| x else v).getLsbD k = true ↔
      v.getLsbD k = true ∨ p ∧ x.getLsbD k = true := by
  split
  · next h => rw [BitVec.getLsbD_or, Bool.or_eq_true, and_iff_right h]
  · next h => simp [h]

/-- The bits that an entry sets in `FLTCR2`. -/
theorem getLsbD_fltcr2 (e : Entry) (k : Nat) :
    e.config.initDataFilter.fltcr2.getLsbD k = true ↔
      (e.configFilter.dma = false ∨ e.configFilter.conversionCompleteCallback = true) ∧
          (k = 1 ∨ k = 0) ∨
        e.configFilter.watchdog = true ∧ (k = 4 ∨ k = fltcr2AwdchPos + e.channel) ∨
          e.extremeDetector = true ∧ k = fltcr2ExchPos + e.channel ∨
            e.configFilter.overrun = true ∧ (k = 2 ∨ k = 3) ∨
              e.filter = 0 ∧ (k = 6 ∨ k = 5) := by
  have hawd : fltcr2AwdchPos + e.channel.val < 32 := by unfold fltcr2AwdchPos; omega
  have hex : fltcr2ExchPos + e.channel.val < 32 := by unfold fltcr2ExchPos; omega
  show (makeFltcr2 e ||| if e.filter = 0 then makeFltcr2Global else 0).getLsbD k = true ↔ _
  have hglobal : (if e.filter = 0 then makeFltcr2Global else 0 : Word).getLsbD k = true ↔
      e.filter = 0 ∧ (k = 6 ∨ k = 5) := by
    split
    · next h => simp [makeFltcr2Global, fltcr2Ckabie, fltcr2Scdie, getLsbD_bit, h]
    · next h => simp [h]
  rw [BitVec.getLsbD_or, Bool.or_eq_true, hglobal]
  unfold makeFltcr2 fltcr2Reocie fltcr2Jeocie fltcr2Awdie fltcr2Jovrie fltcr2Rovrie
  simp only [BitVec.or_assoc]
  rw [getLsbD_ite_or, getLsbD_ite_or, getLsbD_ite_or, getLsbD_ite_or]
  simp only [BitVec.getLsbD_or, Bool.or_eq_true, getLsbD_bit hawd, getLsbD_bit hex,
    getLsbD_bit (w := 32) (k := 0) (by omega), getLsbD_bit (w := 32) (k := 1) (by omega),
    getLsbD_bit (w := 32) (k := 2) (by omega), getLsbD_bit (w := 32) (k := 3) (by omega),
    getLsbD_bit (w := 32) (k := 4) (by omega), decide_eq_true_eq, BitVec.ofNat_eq_ofNat,
    BitVec.getLsbD_zero, Bool.false_eq_true, false_or, or_assoc]

theorem getLsbD_awdch (e : Entry) (c : Fin 8) :
    e.config.initDataFilter.fltcr2.getLsbD (fltcr2AwdchPos + c) = true ↔
      e.configFilter.watchdog = true ∧ c = e.channel := by
  rw [getLsbD_fltcr2, Fin.ext_iff]
  unfold fltcr2AwdchPos fltcr2ExchPos
  have hlt := e.channel.isLt
  have hc := c.isLt
  constructor
  · rintro (⟨-, hk⟩ | ⟨hw, hk⟩ | ⟨-, hk⟩ | ⟨-, hk⟩ | ⟨-, hk⟩)
    · omega
    · exact ⟨hw, by omega⟩
    · omega
    · omega
    · omega
  · rintro ⟨hw, hk⟩
    exact .inr (.inl ⟨hw, .inr (by omega)⟩)

theorem getLsbD_exch (e : Entry) (c : Fin 8) :
    e.config.initDataFilter.fltcr2.getLsbD (fltcr2ExchPos + c) = true ↔
      e.extremeDetector = true ∧ c = e.channel := by
  rw [getLsbD_fltcr2, Fin.ext_iff]
  unfold fltcr2AwdchPos fltcr2ExchPos
  have hlt := e.channel.isLt
  have hc := c.isLt
  constructor
  · rintro (⟨-, hk⟩ | ⟨-, hk⟩ | ⟨hx, hk⟩ | ⟨-, hk⟩ | ⟨-, hk⟩)
    · omega
    · omega
    · exact ⟨hx, by omega⟩
    · omega
    · omega
  · rintro ⟨hx, hk⟩
    exact .inr (.inr (.inl ⟨hx, by omega⟩))

/-- Channels that agree have the same enables. -/
theorem enables_eq {e' : Entry} (h : Entry.shared e = Entry.shared e') {k : Nat} (hk : k < 8) :
    e.config.initDataFilter.fltcr2.getLsbD k = e'.config.initDataFilter.fltcr2.getLsbD k := by
  have hmask : (0xFF#32).getLsbD k = true := by
    revert k
    decide
  have hand : e.config.initDataFilter.fltcr2 &&& 0xFF = e'.config.initDataFilter.fltcr2 &&& 0xFF :=
    congrArg (fun x => x.2.1) h
  have hbit := congrArg (fun x => BitVec.getLsbD x k) hand
  simpa [BitVec.getLsbD_and, hmask] using hbit

/-! ## Every list -/

/-- What the registers of a filter in use have: the groups of its first two channels. -/
structure Programmed (es : List Entry) (f : Fin 4) (r : FilterConfig) : Prop where
  fltjchgr : ∀ k, r.fltjchgr.getLsbD k = true ↔
    ∃ e ∈ (group es f).take 2, e.configFilter.typeConv = .injected ∧ k = e.channel.val
  fltcr2 : ∀ k, r.fltcr2.getLsbD k = true ↔
    ∃ e ∈ (group es f).take 2, e.config.initDataFilter.fltcr2.getLsbD k = true

theorem programmed (h : build es = some cfgs) (hf : group es f ≠ []) :
    Programmed es f (init cfgs (fun _ => afterReset) f) := by
  obtain ⟨c, hfind, hmasks⟩ := first_masks h hf
  obtain ⟨hcr2, hjchgr⟩ := init_apply hfind fun _ => afterReset
  constructor
  · intro k
    rw [hjchgr, hmasks.fltjchgr, getLsbD_union]
    simp only [List.mem_map, exists_exists_and_eq_and, getLsbD_fltjchgr]
  · intro k
    rw [hcr2, hmasks.fltcr2]
    show (0 ||| union _).getLsbD k = true ↔ _
    rw [BitVec.getLsbD_or, Bool.or_eq_true, getLsbD_union]
    simp only [List.mem_map, exists_exists_and_eq_and, BitVec.ofNat_eq_ofNat, BitVec.getLsbD_zero,
      Bool.false_eq_true, false_or]

/-- The third channel of a filter and those after it are none of the first two. -/
theorem drop_disjoint (ha : Accepts es) {e' : Entry} (he : e ∈ (group es f).drop 2)
    (he' : e' ∈ (group es f).take 2) : e.channel ≠ e'.channel := by
  have hnodup : ((group es f).map Entry.channel).Nodup :=
    ha.nodup.sublist (List.filter_sublist.map _)
  rw [← List.take_append_drop 2 (group es f), List.map_append] at hnodup
  exact fun heq => (List.nodup_append.mp hnodup).2.2 _ (List.mem_map_of_mem he') _
    (List.mem_map_of_mem he) heq.symm

/-- **Filter groups.** After `Init::init` the registers of the filters are right exactly
when, from the third channel of a filter on, none is injected and none enables a watchdog
or an extreme detector. -/
theorem groups_right_iff (h : build es = some cfgs) :
    Right es (init cfgs fun _ => afterReset) ↔ Meets es := by
  have ha := (of_build h).1.1
  constructor
  · intro hright f e he hrequests
    have hmem := List.mem_of_mem_drop he
    have hf : group es f ≠ [] := List.ne_nil_of_mem hmem
    have hgroups := hright f hf
    have hprogrammed := programmed h hf
    rcases hrequests with hinjected | hwatchdog | hextreme
    · obtain ⟨e', he', -, hc⟩ := (hprogrammed.fltjchgr _).mp
        ((hgroups.injected _).mpr ⟨e, hmem, hinjected, rfl⟩)
      exact drop_disjoint ha he he' (Fin.ext hc)
    · obtain ⟨e', he', hbit⟩ := (hprogrammed.fltcr2 _).mp
        ((hgroups.watchdogs _).mpr ⟨e, hmem, hwatchdog, rfl⟩)
      exact drop_disjoint ha he he' ((getLsbD_awdch e' _).mp hbit).2
    · obtain ⟨e', he', hbit⟩ := (hprogrammed.fltcr2 _).mp
        ((hgroups.extremes _).mpr ⟨e, hmem, hextreme, rfl⟩)
      exact drop_disjoint ha he he' ((getLsbD_exch e' _).mp hbit).2
  · intro hmeets f hf
    have hprogrammed := programmed h hf
    -- what only entries that ask for a group have, the first two channels have
    have hfirst : ∀ {P : Entry → Prop}, (∀ e, P e → Requests e) →
        ((∃ e ∈ (group es f).take 2, P e) ↔ ∃ e ∈ group es f, P e) := by
      intro P hP
      constructor
      · rintro ⟨e, he, hp⟩
        exact ⟨e, List.mem_of_mem_take he, hp⟩
      · rintro ⟨e, he, hp⟩
        rw [← List.take_append_drop 2 (group es f)] at he
        rcases List.mem_append.mp he with htake | hdrop
        · exact ⟨e, htake, hp⟩
        · exact absurd (hP e hp) (hmeets f e hdrop)
    constructor
    · intro k
      rw [hprogrammed.fltjchgr, hfirst fun e he => .inl he.1]
    · intro c
      rw [hprogrammed.fltcr2]
      simp only [getLsbD_awdch]
      exact hfirst fun e he => .inr (.inl he.1)
    · intro c
      rw [hprogrammed.fltcr2]
      simp only [getLsbD_exch]
      exact hfirst fun e he => .inr (.inr he.1)
    · intro k hk
      rw [hprogrammed.fltcr2]
      constructor
      · rintro ⟨e, he, hbit⟩
        exact ⟨e, List.mem_of_mem_take he, hbit⟩
      · rintro ⟨e, he, hbit⟩
        have htake : (group es f).take 2 ≠ [] := by simpa using hf
        obtain ⟨e₀, hhead⟩ := List.exists_mem_of_ne_nil _ htake
        refine ⟨e₀, hhead, ?_⟩
        have hgroup₀ := List.mem_filter.mp (List.mem_of_mem_take hhead)
        have hgroup := List.mem_filter.mp he
        have hshared := ha.agree e₀ hgroup₀.1 e hgroup.1
          ((of_decide_eq_true hgroup₀.2).trans (of_decide_eq_true hgroup.2).symm)
        rw [enables_eq hshared hk]
        exact hbit

/-- Three injected channels of one filter. -/
def threeInjected : List Entry :=
  [{ configFilter := { typeConv := .injected }, channel := 0, bufferSize := 1, fits := one_lt_sizeLimit },
    { configFilter := { typeConv := .injected }, channel := 1, bufferSize := 1, fits := one_lt_sizeLimit },
    { configFilter := { typeConv := .injected }, channel := 2, bufferSize := 1, fits := one_lt_sizeLimit }]

theorem groups_right_iff_three :
    ∃ cfgs, build threeInjected = some cfgs ∧
      (Right threeInjected (init cfgs fun _ => afterReset) ↔ Meets threeInjected) := by
  obtain ⟨cfgs, h⟩ := Option.ne_none_iff_exists'.mp (show build threeInjected ≠ none by decide)
  exact ⟨cfgs, h, groups_right_iff h⟩

/-- The third one is never sampled. -/
theorem third_lost :
    ¬ ∀ es cfgs, build es = some cfgs → Right es (init cfgs fun _ => afterReset) := by
  intro h
  have hregister : (build threeInjected).map (fun cfgs =>
      (init cfgs (fun _ => afterReset) 0).fltjchgr.getLsbD 2) = some false := by decide
  obtain ⟨cfgs, hbuild, hbit⟩ := Option.map_eq_some_iff.mp hregister
  have hright := h threeInjected cfgs hbuild 0 (by decide)
  obtain ⟨e, he⟩ : ∃ e, e ∈ group threeInjected 0 ∧ e.configFilter.typeConv = .injected ∧
      2 = e.channel.val := ⟨_, List.mem_of_getElem? (i := 2) rfl, rfl, rfl⟩
  rw [(hright.injected 2).mpr ⟨e, he⟩] at hbit
  cases hbit

end StLib.Dfsdm.FilterGroups
