import StLib.Board.DmaModel
import StLib.Board.Lookup

/-! # The DMA of the converters and the filters

The counts and the entries are computed in separate passes against the explicit entries, and
the instances are found by their request. -/
namespace StLib.Board.DmaContributions

open Domains
open Model (Ctx ConfigBundle)
open Lookup (Built built adc_cfgs dfsdm_cfgs checked map_ok contributions_cons)
open Timers.Allocation (bind_ok)
open DmaModel

/-- A converter of the board or a filter of it with DMA needs the peripheral. -/
def Needs (ctx : Ctx) (p : Dma.Peripheral) : Prop :=
  (∃ e ∈ ctx.entries .adc, e.peripheral.dmaPeripheral = p) ∨
    ∃ e ∈ ctx.entries .dfsdmChannel, e.dma = true ∧ DfsdmChannel.dmaFilter e.filter = p

/-- `find_dma_instance` leads from the request of the peripheral to the instance of its entry,
and no other configuration has its stream. -/
def Finds (number : Numbers) (b : DmaBundle) (dmas : List Handle) (p : Dma.Peripheral) : Prop :=
  ∃ request i e dma s, getRequest p 0 = .ok request ∧
    findDmaInstance (number request) dmas = some i ∧ b.merged[i]? = some e ∧ e.peripheral = p ∧
      dmas[i]? = some dma ∧ dma.stream = some s ∧
        ∀ (j : Nat) (c : Config), b.dmaCfgs[j]? = some c → c.stream = some s → j = i

structure Right (number : Numbers) (halDmaInit : HalDmaInit) (ctx : Ctx) (b : DmaBundle) : Prop where
  adcCount : b.adcDmaEntries.length = b.adcDmaExtraN
  dfsdmCount : b.dfsdmDmaEntries.length = b.dfsdmDmaExtraN
  mergedCount : b.merged.length = b.dmaN
  count : b.dmaCfgs.length = b.dmaN
  once : ∀ p, Needs ctx p → b.merged.countP (fun e => e.peripheral = p) = 1
  kept : ∀ (i : Nat) (e : Dma.Entry), (ctx.entries .dma)[i]? = some e → b.merged[i]? = some e ∧
    ∃ c, b.dmaCfgs[i]? = some c ∧ c.peripheral = e.peripheral ∧ c.id = e.id ∧
      ∀ s, e.stream = some s → c.stream = some s
  found : (init halDmaInit b.dmaCfgs).panics = [] →
    ∀ p, Needs ctx p → Finds number b (init halDmaInit b.dmaCfgs).dmas p

/-- `HAL_DMA_Init` leaves the stream and the request of a handle that it initialises; a
transfer between memories gets the request that stands for one. -/
def Initialises (number : Numbers) (halDmaInit : HalDmaInit) : Prop :=
  ∀ h, (halDmaInit h).1 = true → (halDmaInit h).2.stream = h.stream ∧
    (halDmaInit h).2.init.request =
      if h.init.direction = .memoryToMemory then number .mem2mem else h.init.request

/-! ## Contributions -/

variable {entries extra : List Dma.Entry} {ps : List Dma.Peripheral} {p : Dma.Peripheral} {n : Nat}

theorem entriesFor_count {idError : String} (h : Dma.entriesFor idError p entries = .ok n) :
    entries.countP (fun e => e.peripheral = p) = n := by
  induction entries generalizing n with
  | nil => exact Except.ok.inj h
  | cons e rest ih =>
    rw [Dma.entriesFor] at h
    rw [List.countP_cons]
    split at h
    · next hne =>
      rw [ih h, if_neg (by simpa using hne), Nat.add_zero]
    · next heq =>
      split at h
      · cases h
      · obtain ⟨k, hrest, rfl⟩ := map_ok h
        rw [ih hrest, if_pos (by simpa using heq)]

variable {c : Contributor}

/-- The loops of a contributor against the entries. -/
theorem countFrom_eq (count : Nat) :
    c.countFrom entries ps count =
      (Dma.contributions c.uses c.idError c.manyError entries ps).map fun l => count + l.length := by
  induction ps generalizing count with
  | nil => rfl
  | cons p rest ih =>
    rw [Contributor.countFrom, Dma.contributions]
    split
    · cases hexisting : Dma.entriesFor c.idError p entries with
      | error m => rfl
      | ok existing =>
        rcases existing with _ | _ | existing
        · refine (ih (count + 1)).trans ?_
          cases Dma.contributions c.uses c.idError c.manyError entries rest with
          | error m => rfl
          | ok l =>
            refine congrArg Except.ok ?_
            show count + 1 + l.length = count + (l.length + 1)
            omega
        · exact ih count
        · show (do if 1 < existing + 2 then throw c.manyError
                   c.countFrom entries rest (if existing + 2 = 0 then count + 1 else count)) = _
          rw [if_pos (by omega)]
          rfl
    · exact ih count

theorem fill_ok (h : Dma.contributions c.uses c.idError c.manyError entries ps = .ok extra)
    (before : List Dma.Entry) (hn : n = before.length + extra.length) :
    c.fill entries n ps before = .ok (before ++ extra) := by
  induction ps generalizing extra before with
  | nil =>
    obtain rfl := Except.ok.inj h
    rw [Contributor.fill, if_neg (by simp [hn]), List.append_nil]
  | cons p rest ih =>
    rw [Contributor.fill]
    obtain ⟨hp, hzero, l, hl, rfl⟩ | ⟨hone, hrest⟩ := contributions_cons h
    · rw [List.length_cons] at hn
      have hlast := ih hl (before ++ [{ peripheral := p, stream := none, id := 0 }])
        (by rw [List.length_append, List.length_singleton]; omega)
      rw [if_pos hp, hzero]
      show (if before.length < n then _ else _) = _
      rw [if_pos (by omega), hlast, List.append_assoc, List.singleton_append]
    · split
      · next hp =>
        rw [hone hp]
        exact ih hrest before hn
      · exact ih hrest before hn

/-- The declared number of entries is the number of those that are built. -/
theorem contributor_ok
    (h : Dma.contributions c.uses c.idError c.manyError entries c.peripherals = .ok extra) :
    c.dmaContributionCount entries = .ok extra.length ∧
      c.buildDmaContributions entries extra.length = .ok extra := by
  constructor
  · unfold Contributor.dmaContributionCount
    rw [countFrom_eq, h]
    exact congrArg Except.ok (Nat.zero_add _)
  · exact fill_ok h [] (Nat.zero_add _).symm

/-- Only the peripherals of the loop are added. -/
theorem contributions_mem {uses : Dma.Peripheral → Bool} {idError manyError : String}
    (h : Dma.contributions uses idError manyError entries ps = .ok extra) :
    ∀ x ∈ extra, x.peripheral ∈ ps := by
  induction ps generalizing extra with
  | nil =>
    obtain rfl := Except.ok.inj h
    exact nofun
  | cons p rest ih =>
    obtain ⟨-, -, l, hl, rfl⟩ | ⟨-, hrest⟩ := contributions_cons h
    · exact List.forall_mem_cons.mpr
        ⟨List.mem_cons_self, fun x hx => List.mem_cons_of_mem _ (ih hl x hx)⟩
    · exact fun x hx => List.mem_cons_of_mem _ (ih hrest x hx)

theorem countP_notMem (h : ∀ x ∈ extra, x.peripheral ∈ ps) (hp : p ∉ ps) :
    extra.countP (fun e => e.peripheral = p) = 0 := by
  refine List.countP_eq_zero.mpr fun x hx heq => hp ?_
  rw [← of_decide_eq_true heq]
  exact h x hx

/-- A peripheral in use has one entry in the end. -/
theorem contributions_once {uses : Dma.Peripheral → Bool} {idError manyError : String}
    (h : Dma.contributions uses idError manyError entries ps = .ok extra) (hnodup : ps.Nodup)
    (hp : p ∈ ps) (hu : uses p = true) :
    (entries ++ extra).countP (fun e => e.peripheral = p) = 1 := by
  rw [List.countP_append]
  induction ps generalizing extra with
  | nil => cases hp
  | cons q rest ih =>
    obtain ⟨hq, hnodup'⟩ := List.nodup_cons.mp hnodup
    rcases List.mem_cons.mp hp with rfl | hrest
    · obtain ⟨-, hzero, l, hl, rfl⟩ | ⟨hone, hl⟩ := contributions_cons h
      · rw [entriesFor_count hzero, List.countP_cons, countP_notMem (contributions_mem hl) hq,
          if_pos (decide_eq_true rfl)]
      · rw [entriesFor_count (hone hu), countP_notMem (contributions_mem hl) hq]
    · have hne : q ≠ p := fun heq => hq (heq ▸ hrest)
      obtain ⟨-, -, l, hl, rfl⟩ | ⟨-, hl⟩ := contributions_cons h
      · rw [List.countP_cons, if_neg (by simpa using hne)]
        exact ih hl hnodup' hrest
      · exact ih hl hnodup' hrest

/-! ## Configurations -/

/-- The entry stands where its configuration does. -/
structure Configures (e : Dma.Entry) (number : Numbers) (x : Config) : Prop where
  peripheral : x.peripheral = e.peripheral
  id : x.id = e.id
  dmaInit : initStruct number e.peripheral e.id = .ok x.dmaInit
  stream : ∃ s, x.stream = some s ∧ ∀ s', e.stream = some s' → s' = s

/-- The second pass gives each entry a stream and leaves the rest of it. -/
theorem assignStreams_spec {ents : List Dma.Entry} {used : Dma.UsedStreams}
    (h : Dma.assignStreams used entries = .ok ents) :
    List.Forall₂ (fun e e' => ∃ s, e' = { e with stream := some s } ∧
      ∀ s', e.stream = some s' → s' = s) entries ents := by
  induction entries generalizing ents used with
  | nil =>
    obtain rfl := Except.ok.inj h
    exact .nil
  | cons e rest ih =>
    rw [Dma.assignStreams] at h
    cases hs : e.stream with
    | some s =>
      rw [hs] at h
      obtain ⟨l, hl, rfl⟩ := map_ok h
      exact .cons ⟨s, by rw [← hs], fun s' hs' => Option.some.inj (hs'.symm.trans hs)⟩ (ih hl)
    | none =>
      rw [hs] at h
      cases hfree : Dma.firstFree used with
      | none =>
        rw [hfree] at h
        cases h
      | some s =>
        rw [hfree] at h
        obtain ⟨l, hl, rfl⟩ := map_ok h
        exact .cons ⟨s, rfl, fun s' hs' => absurd (hs'.symm.trans hs) (Option.some_ne_none s')⟩ (ih hl)

theorem configure_spec {number : Numbers} {cfgs : List Config}
    (h : configure number entries = .ok cfgs) :
    List.Forall₂ (fun e x => x.peripheral = e.peripheral ∧ x.id = e.id ∧ x.stream = e.stream ∧
      initStruct number e.peripheral e.id = .ok x.dmaInit) entries cfgs := by
  induction entries generalizing cfgs with
  | nil =>
    obtain rfl := Except.ok.inj h
    exact .nil
  | cons e rest ih =>
    obtain ⟨dmaInit, hinit, h⟩ := bind_ok h
    obtain ⟨l, hl, h⟩ := bind_ok h
    obtain rfl := Except.ok.inj h
    exact .cons ⟨rfl, rfl, rfl, hinit⟩ (ih hl)

theorem forall₂_trans {α β γ : Type} {R : α → β → Prop} {S : β → γ → Prop} {T : α → γ → Prop}
    (h : ∀ a b c, R a b → S b c → T a c) {l : List α} {m : List β} {k : List γ}
    (hlm : List.Forall₂ R l m) (hmk : List.Forall₂ S m k) : List.Forall₂ T l k := by
  induction hlm generalizing k with
  | nil =>
    cases hmk
    exact .nil
  | cons hab _ ih =>
    cases hmk with
    | cons hbc hrest => exact .cons (h _ _ _ hab hbc) (ih hrest)

theorem forall₂_getElem? {α β : Type} {R : α → β → Prop} {l : List α} {m : List β}
    (h : List.Forall₂ R l m) {i : Nat} {a : α} (hi : l[i]? = some a) : ∃ b, m[i]? = some b ∧ R a b := by
  induction h generalizing i with
  | nil => cases hi
  | cons hab _ ih =>
    cases i with
    | zero =>
      obtain rfl := Option.some.inj hi
      exact ⟨_, rfl, hab⟩
    | succ i => exact ih hi

theorem forall₂_getElem?_right {α β : Type} {R : α → β → Prop} {l : List α} {m : List β}
    (h : List.Forall₂ R l m) {i : Nat} {b : β} (hi : m[i]? = some b) : ∃ a, l[i]? = some a ∧ R a b :=
  forall₂_getElem? (R := flip R) h.flip hi

theorem checkEarlier_ok {E : Type} {clash : E → E → Bool} {message : String} {es : List E}
    (h : checkEarlier clash message es = .ok ()) : es.Pairwise fun prev e => clash prev e = false := by
  unfold checkEarlier at h
  split at h
  · assumption
  · cases h

/-- Each configuration is made from the entry at its index, and no two have one stream. -/
theorem build_spec {number : Numbers} {cfgs : List Config}
    (h : build number n entries = .ok cfgs) :
    List.Forall₂ (fun e x => Configures e number x) entries cfgs ∧
      (cfgs.map Config.stream).Nodup := by
  rw [DmaModel.build] at h
  split at h
  · cases h
  · obtain ⟨used, -, h⟩ := bind_ok h
    obtain ⟨ents, hents, h⟩ := bind_ok h
    obtain ⟨u, hcheck, h⟩ := bind_ok h
    have hassigned := assignStreams_spec hents
    have hconfigured := configure_spec h
    constructor
    · refine forall₂_trans ?_ hassigned hconfigured
      rintro e e' x ⟨s, rfl, hs⟩ ⟨hp, hid, hstream, hinit⟩
      exact ⟨hp, hid, hinit, s, hstream, hs⟩
    · have hnodup : (ents.map Dma.Entry.stream).Nodup := by
        refine List.pairwise_map.mpr ((checkEarlier_ok hcheck).imp fun hne heq => ?_)
        rw [heq, beq_self_eq_true] at hne
        cases hne
      have hsame : List.Forall₂ (· = ·) (ents.map Dma.Entry.stream) (cfgs.map Config.stream) :=
        List.forall₂_map_left_iff.mpr (List.forall₂_map_right_iff.mpr
          (hconfigured.imp fun e x h => h.2.2.1.symm))
      rw [List.forall₂_eq_eq_eq] at hsame
      rwa [hsame] at hnodup

/-! ## Requests -/

theorem request_of_direction {i : Nat} (h : getDirection p i = .memoryToMemory) :
    getRequest p i = .ok .mem2mem := by
  unfold getDirection at h
  split at h
  · next hm =>
    rcases Bool.or_eq_true_iff.mp hm with hf | hnone
    · obtain ⟨hp, hi⟩ := Bool.and_eq_true_iff.mp hf
      obtain rfl := of_decide_eq_true hp
      obtain rfl := eq_of_beq hi
      rfl
    · obtain rfl := of_decide_eq_true hnone
      rfl
  · split at h <;> cases h

/-- The request of a converter or of a filter is that of no other peripheral. -/
theorem request_unique (hp : p ∈ (adcContributor []).peripherals ++ (dfsdmContributor []).peripherals) :
    ∃ request, getRequest p 0 = .ok request ∧
      ∀ p' i, getRequest p' i = .ok request ↔ p' = p := by
  simp only [adcContributor, dfsdmContributor, List.cons_append, List.nil_append, List.mem_cons,
    List.not_mem_nil, or_false] at hp
  rcases hp with rfl | rfl | rfl | rfl | rfl | rfl | rfl
  all_goals
    refine ⟨_, rfl, fun p' i => ⟨fun h => ?_, ?_⟩⟩
    · unfold getRequest at h
      split at h <;> first | rfl | cases h
    · rintro rfl
      rfl

/-! ## Instances -/

/-- What a successful initialisation leaves of a configuration. -/
def Initialised (number : Numbers) (x : Config) (dma : Handle) : Prop :=
  dma.stream = x.stream ∧ dma.init.request =
    if x.dmaInit.direction = .memoryToMemory then number .mem2mem else x.dmaInit.request

theorem initInstance_spec {number : Numbers} {halDmaInit : HalDmaInit}
    (hhal : Initialises number halDmaInit) {x : Config} {s : Instances}
    (h : (initInstance halDmaInit s x).panics = []) :
    s.panics = [] ∧ ∃ dma, (initInstance halDmaInit s x).dmas = s.dmas ++ [dma] ∧
      Initialised number x dma := by
  have hnone : ∀ message : String, s.panics ++ [message] ≠ [] :=
    fun message => List.append_ne_nil_of_right_ne_nil _ (List.cons_ne_nil _ _)
  unfold initInstance at h ⊢
  cases hs : x.stream with
  | none =>
    rw [hs] at h
    exact absurd h (hnone _)
  | some stream =>
    rw [hs] at h
    dsimp only at h ⊢
    by_cases hok : (halDmaInit { stream := some stream, init := x.dmaInit }).1 = true
    · rw [if_pos hok] at h ⊢
      obtain ⟨hstream, hrequest⟩ := hhal _ hok
      exact ⟨h, _, rfl, hstream.trans hs.symm, hrequest⟩
    · rw [if_neg hok] at h
      exact absurd h (hnone _)

theorem init_spec {number : Numbers} {halDmaInit : HalDmaInit} (hhal : Initialises number halDmaInit)
    {cfgs : List Config} {s : Instances}
    (h : (cfgs.foldl (initInstance halDmaInit) s).panics = []) :
    s.panics = [] ∧ ∃ dmas, (cfgs.foldl (initInstance halDmaInit) s).dmas = s.dmas ++ dmas ∧
      List.Forall₂ (Initialised number) cfgs dmas := by
  induction cfgs generalizing s with
  | nil => exact ⟨h, [], (List.append_nil _).symm, .nil⟩
  | cons x rest ih =>
    obtain ⟨hpanics, dmas, hdmas, hrest⟩ := ih h
    obtain ⟨hpanics', dma, hdma, hinit⟩ := initInstance_spec hhal hpanics
    refine ⟨hpanics', dma :: dmas, ?_, .cons hinit hrest⟩
    rw [List.foldl_cons, hdmas, hdma, List.append_assoc, List.singleton_append]

/-- The request of an initialised instance is that of its entry. -/
theorem request_spec {number : Numbers} {e : Dma.Entry} {x : Config} {dma : Handle}
    (hx : Configures e number x) (hdma : Initialised number x dma) :
    ∃ request, getRequest e.peripheral e.id = .ok request ∧ dma.init.request = number request := by
  obtain ⟨request, hr, hinit⟩ := bind_ok hx.dmaInit
  have hinit := (Except.ok.inj hinit).symm
  refine ⟨request, hr, ?_⟩
  rw [hdma.2, hinit]
  dsimp only
  split
  · next hd => rw [Except.ok.inj (hr.symm.trans (request_of_direction hd))]
  · rfl

/-! ## Lookups -/

theorem unique_of_countP {α : Type} {q : α → Bool} {l : List α} (h : l.countP q = 1) :
    ∃ (i : Nat) (a : α), l[i]? = some a ∧ q a = true ∧
      ∀ (j : Nat) (b : α), l[j]? = some b → q b = true → j = i := by
  induction l with
  | nil => cases h
  | cons a rest ih =>
    rw [List.countP_cons] at h
    by_cases hq : q a = true
    · rw [if_pos hq] at h
      have hrest := List.countP_eq_zero.mp (Nat.succ.inj h)
      refine ⟨0, a, rfl, hq, fun j b hj hb => ?_⟩
      cases j with
      | zero => rfl
      | succ j => exact absurd hb (hrest b (List.mem_of_getElem? hj))
    · rw [if_neg hq] at h
      obtain ⟨i, b, hi, hb, hunique⟩ := ih h
      refine ⟨i + 1, b, hi, hb, fun j d hj hd => ?_⟩
      cases j with
      | zero =>
        obtain rfl := Option.some.inj hj
        exact absurd hd hq
      | succ j => exact congrArg Nat.succ (hunique j d hj hd)

/-- The entry of a peripheral is alone, and its request leads to it. -/
theorem finds_of_once {number : Numbers} (hnumber : Function.Injective number) {b : DmaBundle}
    {dmas : List Handle} (hcfgs : List.Forall₂ (fun e x => Configures e number x) b.merged b.dmaCfgs)
    (hstreams : (b.dmaCfgs.map Config.stream).Nodup)
    (hdmas : List.Forall₂ (Initialised number) b.dmaCfgs dmas)
    (hp : p ∈ (adcContributor []).peripherals ++ (dfsdmContributor []).peripherals)
    (honce : b.merged.countP (fun e => e.peripheral = p) = 1) : Finds number b dmas p := by
  obtain ⟨request, hrequest, hunique⟩ := request_unique hp
  obtain ⟨i, e, hi, he, halone⟩ := unique_of_countP honce
  obtain ⟨x, hx, hconf⟩ := forall₂_getElem? hcfgs hi
  obtain ⟨dma, hdma, hinit⟩ := forall₂_getElem? hdmas hx
  obtain ⟨s, hs, -⟩ := hconf.stream
  have hmatch : ∀ (j : Nat) (d : Handle), dmas[j]? = some d → (d.init.request = number request ↔ j = i) := by
    intro j d hj
    obtain ⟨y, hy, hinit'⟩ := forall₂_getElem?_right hdmas hj
    obtain ⟨e', he', hconf'⟩ := forall₂_getElem?_right hcfgs hy
    obtain ⟨r, hr, hd⟩ := request_spec hconf' hinit'
    have hperipheral : d.init.request = number request ↔ e'.peripheral = p := by
      rw [hd, hnumber.eq_iff, ← hunique e'.peripheral e'.id, hr, Except.ok.injEq]
    rw [hperipheral]
    constructor
    · intro hp'
      exact halone j e' he' (decide_eq_true hp')
    · rintro rfl
      obtain rfl := Option.some.inj (he'.symm.trans hi)
      exact of_decide_eq_true he
  refine ⟨request, i, e, dma, s, hrequest, ?_, hi, of_decide_eq_true he, hdma, hinit.1.trans hs, ?_⟩
  · obtain ⟨hlt, hget⟩ := List.getElem?_eq_some_iff.mp hdma
    refine List.findIdx?_eq_some_iff_getElem.mpr ⟨hlt, ?_, fun j hji hj => ?_⟩
    · rw [hget]
      exact beq_iff_eq.mpr ((hmatch i dma hdma).mpr rfl)
    · have hsame := (hmatch j _ (List.getElem?_eq_getElem (Nat.lt_trans hji hlt))).mp (eq_of_beq hj)
      exact Nat.ne_of_lt hji hsame
  · intro j c hj hc
    have hlt : j < (b.dmaCfgs.map Config.stream).length := by
      rw [List.length_map]
      exact (List.getElem?_eq_some_iff.mp hj).1
    refine (List.getElem?_inj hlt hstreams).mp ?_
    rw [List.getElem?_map, List.getElem?_map, hj, hx, Option.map_some, Option.map_some, hc, hs]

/-! ## Boards -/

/-- A configuration without its settings. -/
def plain (x : Config) : Dma.Config := { peripheral := x.peripheral, stream := x.stream, id := x.id }

theorem getRequest_of_hasRequest {i : Nat} (h : Dma.hasRequest p i = true) :
    ∃ request, getRequest p i = .ok request := by
  rcases i with _ | _ | _ | i <;> cases p <;> first | exact ⟨_, rfl⟩ | cases h

theorem configure_ok (number : Numbers) {cfgs : List Dma.Config} (h : Dma.configure entries = .ok cfgs) :
    ∃ full, configure number entries = .ok full ∧ full.map plain = cfgs := by
  induction entries generalizing cfgs with
  | nil =>
    obtain rfl := Except.ok.inj h
    exact ⟨[], rfl, rfl⟩
  | cons e rest ih =>
    rw [Dma.configure] at h
    split at h
    · next hr =>
      obtain ⟨l, hl, rfl⟩ := map_ok h
      obtain ⟨full, hfull, rfl⟩ := ih hl
      obtain ⟨request, hrequest⟩ := getRequest_of_hasRequest hr
      rw [configure, initStruct, hrequest, hfull]
      exact ⟨_, rfl, rfl⟩
    · cases h

theorem build_ok (number : Numbers) {cfgs : List (Nat × Dma.Config)} (h : Dma.build entries = .ok cfgs) :
    ∃ full, build number entries.length entries = .ok full ∧ inPlace (full.map plain) = cfgs := by
  obtain ⟨used, hused, h⟩ := bind_ok h
  obtain ⟨ents, hents, h⟩ := bind_ok h
  obtain ⟨u, hcheck, h⟩ := bind_ok h
  obtain ⟨made, hmade, h⟩ := bind_ok h
  obtain ⟨full, hfull, rfl⟩ := configure_ok number hmade
  refine ⟨full, ?_, Except.ok.inj h⟩
  rw [DmaModel.build, if_neg (not_not_intro rfl), hused]
  show (Dma.assignStreams used entries >>= fun ents => _) = _
  rw [hents]
  show (checkEarlier _ _ ents >>= fun _ => _) = _
  rw [hcheck]
  exact hfull

/-- What an accepted board has been built from. -/
structure Accepted (number : Numbers) (ctx : Ctx) (cfg : ConfigBundle) (b : DmaBundle) : Prop where
  adc : Adc.dmaContributions (ctx.entries .adc) (ctx.entries .dma) = .ok b.adcDmaEntries
  dfsdm : DfsdmChannel.dmaContributions ((cfg .dfsdmChannel).map Prod.snd) (ctx.entries .dma) =
    .ok b.dfsdmDmaEntries
  merged : b.merged = ctx.entries .dma ++ (b.adcDmaEntries ++ b.dfsdmDmaEntries)
  built : build number b.merged.length b.merged = .ok b.dmaCfgs
  plain : inPlace (b.dmaCfgs.map plain) = cfg .dma
  adcCount : b.adcDmaExtraN = b.adcDmaEntries.length
  dfsdmCount : b.dfsdmDmaExtraN = b.dfsdmDmaEntries.length
  dmaN : b.dmaN = b.merged.length

/-- The counts and the sizes agree, so the board is accepted. -/
theorem buildDma_ok {scheduler : Timers.Model.SchedulerTimer} {ctx : Ctx} {cfg : ConfigBundle}
    (number : Numbers) (h : Built scheduler ctx cfg extra) :
    ∃ b, buildDma number ctx ((cfg .adc).map Prod.snd) ((cfg .dfsdmChannel).map Prod.snd) = .ok b ∧
      Accepted number ctx cfg b := by
  obtain ⟨adcEntries, hadc, hrest⟩ := bind_ok h.contributed
  obtain ⟨dfsdmEntries, hdfsdm, hrest⟩ := bind_ok hrest
  obtain rfl := Except.ok.inj hrest
  obtain ⟨hadcCount, hadcBuild⟩ := contributor_ok (c := adcContributor ((cfg .adc).map Prod.snd)) hadc
  obtain ⟨hdfsdmCount, hdfsdmBuild⟩ :=
    contributor_ok (c := dfsdmContributor ((cfg .dfsdmChannel).map Prod.snd)) hdfsdm
  obtain ⟨full, hfull, hplain⟩ := build_ok number (h.cfgs .dma)
  have hn : ctx.size .dma + adcEntries.length + dfsdmEntries.length =
      (Lookup.requests ctx (adcEntries ++ dfsdmEntries) .dma).length := by
    rw [Lookup.requests, List.length_append, List.length_append, Lookup.size_eq, Nat.add_assoc]
  have hmerged : mergeDmaEntries (ctx.size .dma + adcEntries.length + dfsdmEntries.length)
      (ctx.entries .dma) [adcEntries, dfsdmEntries] =
        .ok (Lookup.requests ctx (adcEntries ++ dfsdmEntries) .dma) := by
    unfold mergeDmaEntries
    rw [if_neg]
    · simp [Lookup.requests]
    · rw [Lookup.size_eq]
      simp [Nat.add_assoc]
  rw [adc_cfgs (h.cfgs .adc)] at hadc
  refine ⟨{ adcDmaExtraN := adcEntries.length
            adcDmaEntries := adcEntries
            dfsdmDmaExtraN := dfsdmEntries.length
            dfsdmDmaEntries := dfsdmEntries
            dmaN := ctx.size .dma + adcEntries.length + dfsdmEntries.length
            merged := Lookup.requests ctx (adcEntries ++ dfsdmEntries) .dma
            dmaCfgs := full }, ?_, ⟨hadc, hdfsdm, rfl, hfull, hplain, rfl, rfl, hn⟩⟩
  unfold buildDma
  dsimp only
  rw [hadcCount]
  show (Contributor.buildDmaContributions _ _ _ >>= fun _ => _) = _
  rw [hadcBuild]
  show (Contributor.dmaContributionCount _ _ >>= fun _ => _) = _
  rw [hdfsdmCount]
  show (Contributor.buildDmaContributions _ _ _ >>= fun _ => _) = _
  rw [hdfsdmBuild]
  show (mergeDmaEntries _ _ _ >>= fun _ => _) = _
  rw [hmerged]
  show (build number _ _ >>= fun _ => _) = _
  rw [hn, hfull]
  rfl

theorem needs_peripheral {ctx : Ctx} (h : Needs ctx p) :
    p ∈ (adcContributor []).peripherals ++ (dfsdmContributor []).peripherals := by
  rcases h with ⟨e, -, rfl⟩ | ⟨e, -, -, rfl⟩
  · cases e.peripheral <;> decide
  · generalize e.filter = filter
    revert filter
    decide

theorem once {scheduler : Timers.Model.SchedulerTimer} {number : Numbers} {ctx : Ctx}
    {cfg : ConfigBundle} {b : DmaBundle} (h : Built scheduler ctx cfg extra)
    (hb : Accepted number ctx cfg b) (hp : Needs ctx p) :
    b.merged.countP (fun e => e.peripheral = p) = 1 := by
  have hadc := contributions_mem hb.adc
  have hdfsdm := contributions_mem hb.dfsdm
  rw [hb.merged, List.countP_append, List.countP_append]
  rcases hp with ⟨e, he, rfl⟩ | ⟨e, he, hdma, rfl⟩
  · have hmem : e.peripheral.dmaPeripheral ∈ (adcContributor []).peripherals := by
      cases e.peripheral <;> decide
    have hother : e.peripheral.dmaPeripheral ∉ (dfsdmContributor []).peripherals := by
      cases e.peripheral <;> decide
    have hone := contributions_once hb.adc (by decide) hmem
      (List.any_eq_true.mpr ⟨e, he, beq_self_eq_true _⟩)
    rw [List.countP_append] at hone
    rw [countP_notMem hdfsdm hother, Nat.add_zero]
    exact hone
  · have hmem : DfsdmChannel.dmaFilter e.filter ∈ (dfsdmContributor []).peripherals := by
      generalize e.filter = filter
      revert filter
      decide
    have hother : DfsdmChannel.dmaFilter e.filter ∉ (adcContributor []).peripherals := by
      generalize e.filter = filter
      revert filter
      decide
    have huse : ((cfg .dfsdmChannel).map Prod.snd).any
        (fun c => DfsdmChannel.dmaFilter c.filter == DfsdmChannel.dmaFilter e.filter && c.dmaEnable) =
          true := by
      rw [dfsdm_cfgs (h.cfgs .dfsdmChannel)]
      refine List.any_eq_true.mpr ⟨_, List.mem_map_of_mem he, ?_⟩
      rw [hdma, beq_self_eq_true]
      rfl
    have hone := contributions_once hb.dfsdm (by decide) hmem huse
    rw [List.countP_append] at hone
    rw [countP_notMem hadc hother, Nat.zero_add]
    exact hone

theorem mockNumbers_injective : Function.Injective mockNumbers := by
  have hlt : ∀ request : Request, request.ctorIdx < 2 ^ 32 := by
    intro request
    cases request <;> decide
  intro r r' h
  have hidx : r.ctorIdx = r'.ctorIdx := by
    have hnat := congrArg BitVec.toNat h
    simpa only [mockNumbers, BitVec.toNat_ofNat, Nat.mod_eq_of_lt (hlt r),
      Nat.mod_eq_of_lt (hlt r')] using hnat
  rw [← Request.ofNat_ctorIdx r, hidx, Request.ofNat_ctorIdx]

/-- An initialisation that succeeds. -/
def initialise (number : Numbers) : HalDmaInit := fun h =>
  (true, if h.init.direction = .memoryToMemory then
    { h with init := { h.init with request := number .mem2mem } } else h)

theorem initialises_initialise (number : Numbers) : Initialises number (initialise number) := by
  intro h _
  unfold initialise
  dsimp only
  split
  · exact ⟨rfl, rfl⟩
  · exact ⟨rfl, rfl⟩

/-- A DMA request for I2C beside channels of a converter and of a filter with DMA. -/
def mixedBoard : Nat → Model.Device
  | 0 => .dma .i2c1 [none, none]
  | 1 => .adc { port := 5, pin := 11 } .adc1 2
  | _ => .dfsdmChannel { port := 2, pin := 1 } 0 2 true

end StLib.Board.DmaContributions
