import Mathlib.Data.Nat.Find
import StLib.Board.Inscription
import StLib.Timers.Allocation

/-! # Which instance a board hands out

`Board::init` and `Board::instance_of` each compute the size that names a domain's storage,
and the index in it. They agree in every domain but `DMADomain`, where `build` adds entries
that `instance_of` does not count; and a timer's configuration stands at its request's index
only where the requests are served in their order. -/
namespace StLib.Board.Lookup

open Domains
open Model
open Inscription
open Timers.Allocation (bind_ok)

/-- What `instance_of` gives for `dev` was initialised from the configuration of a request
that `dev` owns. -/
def LooksUpOwn (objects : Nat → Device) (ctx : Ctx) (cfg : ConfigBundle) (dev : Nat) : Prop :=
  ∀ d ref, (objects dev).domain = some d → instanceOf ctx d { object := dev } = .ok ref →
    ∃ r c, init ctx cfg Memory.zero ref.storage ref.idx = some (r, c) ∧
      (ctx.owners d)[r]? = some { object := dev }

/-- Every peripheral that needs a DMA entry has one among the requests. -/
structure DmaRequested (ctx : Ctx) : Prop where
  adc : ∀ e ∈ ctx.entries .adc, ∃ x ∈ ctx.entries .dma, x.peripheral = e.peripheral.dmaPeripheral
  dfsdm : ∀ e ∈ ctx.entries .dfsdmChannel, e.dma = true →
    ∃ x ∈ ctx.entries .dma, x.peripheral = DfsdmChannel.dmaFilter e.filter

/-- Among the timer requests, the one that is served at the place of a device's first is the
device's. -/
def TimersInPlace (ctx : Ctx) : Prop :=
  ∀ (i : Nat) (a : Address), (ctx.owners .timer)[i]? = some a → (∀ j < i, (ctx.owners .timer)[j]? ≠ some a) →
    ∃ r, (Timers.Allocation.serviceOrder (ctx.entries .timer))[i]? = some r ∧
      (ctx.owners .timer)[r]? = some a

/-! ## owner_index_of -/

theorem ownerIndexOf_iff {target : Address} {owners : List Address} {n i : Nat} :
    ownerIndexOf target n owners = .ok i ↔
      ∃ k, i = n + k ∧ owners[k]? = some target ∧ ∀ j < k, owners[j]? ≠ some target := by
  induction owners generalizing n with
  | nil => exact ⟨nofun, fun ⟨k, _, hk, _⟩ => nomatch hk⟩
  | cons owner rest ih =>
    rw [ownerIndexOf]
    by_cases heq : owner = target
    · rw [if_pos heq]
      constructor
      · intro h
        exact ⟨0, (Except.ok.inj h).symm, congrArg some heq, nofun⟩
      · rintro ⟨k, rfl, -, hfirst⟩
        cases k with
        | zero => rfl
        | succ k => exact absurd (congrArg some heq) (hfirst 0 (Nat.succ_pos k))
    · rw [if_neg heq, ih]
      constructor
      · rintro ⟨k, rfl, hk, hfirst⟩
        refine ⟨k + 1, by omega, hk, fun j hj => ?_⟩
        cases j with
        | zero => exact fun h => heq (Option.some.inj h)
        | succ j => exact hfirst j (Nat.lt_of_succ_lt_succ hj)
      · rintro ⟨k, rfl, hk, hfirst⟩
        cases k with
        | zero => exact absurd (Option.some.inj hk) heq
        | succ k => exact ⟨k, by omega, hk, fun j hj => hfirst (j + 1) (Nat.succ_lt_succ hj)⟩

theorem instanceOf_iff {ctx : Ctx} {d : Domain} {target : Address} {ref : Reference} :
    instanceOf ctx d target = .ok ref ↔ ref.storage = { domain := d, n := ctx.size d } ∧
      (ctx.owners d)[ref.idx]? = some target ∧ ∀ j < ref.idx, (ctx.owners d)[j]? ≠ some target := by
  have hbind : instanceOf ctx d target = .ok ref ↔
      ∃ idx, ownerIndexOf target 0 (ctx.owners d) = .ok idx ∧
        ref = { storage := { domain := d, n := ctx.size d }, idx := idx } := by
    unfold instanceOf
    cases ownerIndexOf target 0 (ctx.owners d) with
    | error m => exact ⟨nofun, fun ⟨_, h, _⟩ => nomatch h⟩
    | ok idx => exact ⟨fun h => ⟨idx, rfl, (Except.ok.inj h).symm⟩,
        fun ⟨_, h, hr⟩ => by rw [hr, Except.ok.inj h]; rfl⟩
  rw [hbind]
  constructor
  · rintro ⟨idx, hidx, rfl⟩
    obtain ⟨k, hk, hget, hfirst⟩ := ownerIndexOf_iff.mp hidx
    rw [Nat.zero_add] at hk
    subst hk
    exact ⟨rfl, hget, hfirst⟩
  · rintro ⟨hs, hget, hfirst⟩
    refine ⟨ref.idx, ownerIndexOf_iff.mpr ⟨ref.idx, (Nat.zero_add _).symm, hget, hfirst⟩, ?_⟩
    rw [← hs]

/-! ## build -/

/-- The entries that each domain's `build` is given. -/
def requests (ctx : Ctx) (extra : List Dma.Entry) : (d : Domain) → List (Entry d)
  | .dma => ctx.entries .dma ++ extra
  | d => ctx.entries d

/-- What `build` has done when it returns. -/
structure Built (scheduler : Timers.Model.SchedulerTimer) (ctx : Ctx) (cfg : ConfigBundle)
    (extra : List Dma.Entry) : Prop where
  contributed : extraDma ctx (cfg .adc) (cfg .dfsdmChannel) = .ok extra
  cfgs : ∀ d, Domains.build scheduler d (requests ctx extra d) = .ok (cfg d)

variable {scheduler : Timers.Model.SchedulerTimer} {ctx : Ctx} {cfg : ConfigBundle}

theorem built (h : Model.build scheduler ctx = .ok cfg) : ∃ extra, Built scheduler ctx cfg extra := by
  obtain ⟨adcCfgs, hadc, h⟩ := bind_ok h
  obtain ⟨dfsdmCfgs, hdfsdm, h⟩ := bind_ok h
  obtain ⟨extra, hextra, h⟩ := bind_ok h
  obtain ⟨mpuCfgs, hmpu, h⟩ := bind_ok h
  obtain ⟨gpioCfgs, hgpio, h⟩ := bind_ok h
  obtain ⟨timCfgs, htim, h⟩ := bind_ok h
  obtain ⟨dmaCfgs, hdma, h⟩ := bind_ok h
  obtain ⟨spiCfgs, hspi, h⟩ := bind_ok h
  obtain ⟨doutCfgs, hdout, h⟩ := bind_ok h
  obtain ⟨dinCfgs, hdin, h⟩ := bind_ok h
  obtain ⟨mdmaPacketCfgs, hmdma, h⟩ := bind_ok h
  obtain ⟨sdCfgs, hsd, h⟩ := bind_ok h
  obtain ⟨ethCfgs, heth, h⟩ := bind_ok h
  obtain ⟨extiCfgs, hexti, h⟩ := bind_ok h
  obtain ⟨dfsdmClkCfgs, hclk, h⟩ := bind_ok h
  obtain rfl := Except.ok.inj h
  refine ⟨extra, hextra, fun d => ?_⟩
  cases d <;> assumption

/-- The entry that each configuration of a domain is built from. -/
def order : (d : Domain) → List (Entry d) → List Nat
  | .timer, entries => Timers.Allocation.serviceOrder entries
  | _, entries => List.range entries.length

theorem inPlace_fst {C : Type} (cfgs : List C) : (inPlace cfgs).map Prod.fst = List.range cfgs.length := by
  refine List.ext_getElem (by simp [inPlace]) fun i _ _ => ?_
  simp [inPlace]

theorem inPlace_snd {C : Type} (cfgs : List C) : (inPlace cfgs).map Prod.snd = cfgs := by
  refine List.ext_getElem (by simp [inPlace]) fun i _ _ => ?_
  simp [inPlace]

theorem checked {E C : Type} {clash : E → E → Bool} {message : String} {entries : List E}
    {x : Except String C} {y : C} (h : (checkEarlier clash message entries >>= fun _ => x) = .ok y) :
    x = .ok y := by
  obtain ⟨-, -, h⟩ := bind_ok h
  exact h

theorem map_ok {α β : Type} {f : α → β} {x : Except String α} {y : β} (h : x.map f = .ok y) :
    ∃ a, x = .ok a ∧ y = f a := by
  cases x with
  | error m => cases h
  | ok a => exact ⟨a, rfl, (Except.ok.inj h).symm⟩

theorem assignStreams_length {entries ents : List Dma.Entry} {used : Dma.UsedStreams}
    (h : Dma.assignStreams used entries = .ok ents) : ents.length = entries.length := by
  induction entries generalizing used ents with
  | nil =>
    obtain rfl := Except.ok.inj h
    rfl
  | cons e rest ih =>
    have hcons : ∀ {used' x}, (Dma.assignStreams used' rest).map (x :: ·) = .ok ents →
        ents.length = (e :: rest).length := by
      intro used' x hmap
      obtain ⟨l, hrest, rfl⟩ := map_ok hmap
      rw [List.length_cons, List.length_cons, ih hrest]
    rw [Dma.assignStreams] at h
    split at h
    · exact hcons h
    · cases h
    · exact hcons h

theorem configure_length {entries : List Dma.Entry} {cfgs : List Dma.Config}
    (h : Dma.configure entries = .ok cfgs) : cfgs.length = entries.length := by
  induction entries generalizing cfgs with
  | nil =>
    obtain rfl := Except.ok.inj h
    rfl
  | cons e rest ih =>
    rw [Dma.configure] at h
    split at h
    · obtain ⟨l, hrest, rfl⟩ := map_ok h
      rw [List.length_cons, List.length_cons, ih hrest]
    · cases h

theorem dma_order {entries : List Dma.Entry} {cfgs : List (Nat × Dma.Config)}
    (h : Dma.build entries = .ok cfgs) : cfgs.map Prod.fst = List.range entries.length := by
  obtain ⟨used, -, h⟩ := bind_ok h
  obtain ⟨ents, hents, h⟩ := bind_ok h
  obtain ⟨made, hmade, h⟩ := bind_ok (checked h)
  obtain rfl := Except.ok.inj h
  rw [inPlace_fst, configure_length hmade, assignStreams_length hents]

/-- Every domain but that of the timers writes `cfgs[i]` for `entries[i]`. -/
theorem build_order {d : Domain} {entries : List (Entry d)} {cfgs : List (Nat × Config d)}
    (h : Domains.build scheduler d entries = .ok cfgs) : cfgs.map Prod.fst = order d entries := by
  have hplace : ∀ {made : List (Config d)}, made.length = entries.length →
      Except.ok (ε := String) (inPlace made) = .ok cfgs → cfgs.map Prod.fst = List.range entries.length := by
    intro made hlen hmade
    rw [← Except.ok.inj hmade, inPlace_fst, hlen]
  cases d with
  | timer => exact (Timers.Allocation.accepted h).map_fst
  | dma => exact dma_order h
  | mpu => exact hplace (by simp) h
  | gpio => exact hplace (by simp) (checked h)
  | spi => exact hplace rfl (checked h)
  | digitalOutput => exact hplace (by simp) h
  | digitalInput => exact hplace (by simp) h
  | mdmaPacket => exact hplace (by simp) h
  | sd => exact hplace rfl (checked h)
  | adc => exact hplace rfl (checked (checked h))
  | dfsdmChannel => exact hplace (by simp) (checked (checked h))
  | exti =>
    change Exti.build entries = .ok cfgs at h
    unfold Exti.build at h
    split at h
    · cases h
    · exact hplace (by simp) (checked h)
  | dfsdmClk =>
    change DfsdmClk.build entries = .ok cfgs at h
    unfold DfsdmClk.build at h
    split at h
    · cases h
    · exact hplace (by simp) h
  | ethernet =>
    match entries, h with
    | [], h => exact (Except.ok.inj h) ▸ rfl
    | [_], h => exact (Except.ok.inj h) ▸ rfl

theorem order_length {scheduler : Timers.Model.SchedulerTimer} {d : Domain} {entries : List (Entry d)}
    {cfgs : List (Nat × Config d)} (h : Domains.build scheduler d entries = .ok cfgs) :
    cfgs.length = entries.length := by
  have horder := congrArg List.length (build_order h)
  rw [List.length_map] at horder
  rw [horder]
  cases d with
  | timer => rw [order, (Timers.Allocation.accepted h).serviceOrder_perm.length_eq, List.length_range]
  | _ => exact List.length_range

/-! ## The DMA entries that are added -/

theorem entriesFor_zero {idError : String} {p : Dma.Peripheral} {entries : List Dma.Entry} {n : Nat}
    (h : Dma.entriesFor idError p entries = .ok n) : n = 0 ↔ ∀ x ∈ entries, x.peripheral ≠ p := by
  induction entries generalizing n with
  | nil =>
    obtain rfl := Except.ok.inj h
    exact iff_of_true rfl nofun
  | cons e rest ih =>
    rw [Dma.entriesFor] at h
    split at h
    · rename_i hne
      rw [ih h, List.forall_mem_cons]
      exact ⟨fun hall => ⟨hne, hall⟩, And.right⟩
    · rename_i heq
      split at h
      · cases h
      · obtain ⟨k, -, rfl⟩ := map_ok h
        exact iff_of_false (Nat.succ_ne_zero k) fun hall => heq (hall e List.mem_cons_self)

/-- What one round of the loop that adds the entries has done. -/
theorem contributions_cons {uses : Dma.Peripheral → Bool} {idError manyError : String}
    {entries extra : List Dma.Entry} {p : Dma.Peripheral} {rest : List Dma.Peripheral}
    (h : Dma.contributions uses idError manyError entries (p :: rest) = .ok extra) :
    (uses p = true ∧ Dma.entriesFor idError p entries = .ok 0 ∧
      ∃ l, Dma.contributions uses idError manyError entries rest = .ok l ∧
        extra = { peripheral := p, stream := none, id := 0 } :: l) ∨
    ((uses p = true → Dma.entriesFor idError p entries = .ok 1) ∧
      Dma.contributions uses idError manyError entries rest = .ok extra) := by
  rw [Dma.contributions] at h
  split at h
  · next hp =>
    split at h
    · cases h
    · next hzero =>
      exact .inl ⟨hp, hzero, map_ok h⟩
    · next hone => exact .inr ⟨fun _ => hone, h⟩
    · cases h
  · next hp => exact .inr ⟨fun hu => absurd hu hp, h⟩

theorem contributions_nil {uses : Dma.Peripheral → Bool} {idError manyError : String}
    {entries extra : List Dma.Entry} {ps : List Dma.Peripheral}
    (h : Dma.contributions uses idError manyError entries ps = .ok extra) :
    extra = [] ↔ ∀ p ∈ ps, uses p = true → ∃ x ∈ entries, x.peripheral = p := by
  induction ps generalizing extra with
  | nil =>
    obtain rfl := Except.ok.inj h
    exact iff_of_true rfl nofun
  | cons p rest ih =>
    rw [List.forall_mem_cons]
    obtain ⟨hp, hzero, l, hl, rfl⟩ | ⟨hone, hrest⟩ := contributions_cons h
    · refine iff_of_false (List.cons_ne_nil _ _) fun hall => ?_
      obtain ⟨x, hx, heq⟩ := hall.1 hp
      exact (entriesFor_zero hzero).mp rfl x hx heq
    · have hsome : uses p = true → ∃ x ∈ entries, x.peripheral = p := by
        intro hp
        by_contra hnone
        push Not at hnone
        exact absurd ((entriesFor_zero (hone hp)).mpr hnone) Nat.one_ne_zero
      rw [ih hrest]
      exact ⟨fun hall => ⟨hsome, hall⟩, And.right⟩

theorem adc_cfgs {entries : List Adc.Entry} {cfgs : List (Nat × Adc.Config)}
    (h : Adc.build entries = .ok cfgs) : cfgs.map Prod.snd = entries := by
  rw [← Except.ok.inj (checked (checked h)), inPlace_snd]

theorem dfsdm_cfgs {entries : List DfsdmChannel.Entry} {cfgs : List (Nat × DfsdmChannel.Config)}
    (h : DfsdmChannel.build entries = .ok cfgs) : cfgs.map Prod.snd = entries.map fun e =>
      { gpioIdx := e.gpioIdx, channel := e.channel, filter := e.filter, dmaEnable := e.dma } := by
  rw [← Except.ok.inj (checked (checked h)), inPlace_snd]

/-- `build` adds no DMA entry when every peripheral that needs one has requested it. -/
theorem extra_nil {extra : List Dma.Entry} (h : Built scheduler ctx cfg extra) :
    extra = [] ↔ DmaRequested ctx := by
  obtain ⟨adcEntries, hadc, hrest⟩ := bind_ok h.contributed
  obtain ⟨dfsdmEntries, hdfsdm, hrest⟩ := bind_ok hrest
  obtain rfl := Except.ok.inj hrest
  have hadcNil := contributions_nil hadc
  have hdfsdmNil := contributions_nil hdfsdm
  rw [adc_cfgs (h.cfgs .adc)] at hadcNil
  rw [dfsdm_cfgs (h.cfgs .dfsdmChannel)] at hdfsdmNil
  rw [List.append_eq_nil_iff, hadcNil, hdfsdmNil]
  constructor
  · rintro ⟨ha, hd⟩
    refine ⟨fun e he => ha _ ?_ ?_, fun e he hdma => hd _ ?_ ?_⟩
    · cases e.peripheral <;> decide
    · exact List.any_eq_true.mpr ⟨e, he, beq_self_eq_true _⟩
    · generalize e.filter = filter
      revert filter
      decide
    · refine List.any_eq_true.mpr ⟨_, List.mem_map_of_mem he, ?_⟩
      rw [hdma, beq_self_eq_true]
      rfl
  · intro hr
    refine ⟨fun p _ hp => ?_, fun p _ hp => ?_⟩
    · obtain ⟨e, he, heq⟩ := List.any_eq_true.mp hp
      rw [← eq_of_beq heq]
      exact hr.adc e he
    · obtain ⟨c, hc, huse⟩ := List.any_eq_true.mp hp
      obtain ⟨e, he, rfl⟩ := List.mem_map.mp hc
      obtain ⟨heq, hdma⟩ := Bool.and_eq_true_iff.mp huse
      rw [← eq_of_beq heq]
      exact hr.dfsdm e he hdma

/-! ## init -/

/-- The size with which `init` names the storage of a domain. -/
def initSize (ctx : Ctx) (cfg : ConfigBundle) : Domain → Nat
  | .dma => (cfg .dma).length
  | d => ctx.size d

section Memory

variable {d : Domain} {n : Nat} {cfgs : List (Nat × Config d)} {m : Memory}

theorem initDomain_other {d' : Domain} {n' i : Nat} (h : d' ≠ d) :
    initDomain d n cfgs m ⟨d', n'⟩ i = m ⟨d', n'⟩ i := by
  rw [initDomain, Function.update_of_ne fun heq => h (congrArg Storage.domain heq)]

theorem initFirst_other {d' : Domain} {n' i : Nat} (h : d' ≠ d) :
    initFirst d n cfgs m ⟨d', n'⟩ i = m ⟨d', n'⟩ i := by
  unfold initFirst
  split
  · rfl
  · rw [Function.update_of_ne fun heq => h (congrArg Storage.domain heq)]

theorem initDomain_apply (n' i : Nat) : initDomain d n cfgs m ⟨d, n'⟩ i =
    if n' = n ∧ i < n' then cfgs[i]? else m ⟨d, n'⟩ i := by
  unfold initDomain
  by_cases hn : n' = n
  · subst hn
    rw [Function.update_self]
    simp
  · rw [Function.update_of_ne (fun heq => hn (congrArg Storage.n heq)), if_neg fun h => hn h.1]

theorem initFirst_apply {n' : Nat} (i : Nat) (hone : n' ≤ 1) : initFirst d n cfgs m ⟨d, n'⟩ i =
    if n' = n ∧ i < n' then cfgs[i]? else m ⟨d, n'⟩ i := by
  unfold initFirst
  by_cases hn : n' = n
  · subst hn
    split
    · rw [if_neg (by omega)]
    · rw [Function.update_self]
      by_cases hi : i = 0
      · subst hi
        rw [if_pos rfl, if_pos ⟨rfl, by omega⟩]
      · rw [if_neg hi, if_neg (by omega)]
  · rw [if_neg (fun h => hn h.1 : ¬(n' = n ∧ i < n'))]
    split
    · rfl
    · rw [Function.update_of_ne fun heq => hn (congrArg Storage.n heq)]

end Memory

theorem init_apply (ctx : Ctx) (cfg : ConfigBundle) (d : Domain) (n i : Nat)
    (hfirst : d = .ethernet ∨ d = .dfsdmClk → n ≤ 1) :
    init ctx cfg Memory.zero ⟨d, n⟩ i = if n = initSize ctx cfg d ∧ i < n then (cfg d)[i]? else none := by
  cases d
  case mpu =>
    simp (disch := decide) only [init, initDomain_other, initFirst_other]
    rw [initDomain_apply]
    rfl
  case ethernet =>
    simp (disch := decide) only [init, initDomain_other, initFirst_other]
    rw [initFirst_apply i (hfirst (.inl rfl))]
    simp (disch := decide) only [initDomain_other]
    rfl
  case dfsdmClk =>
    rw [init, initFirst_apply i (hfirst (.inr rfl))]
    simp (disch := decide) only [initDomain_other, initFirst_other]
    rfl
  all_goals
    simp (disch := decide) only [init, initDomain_other, initFirst_other]
    rw [initDomain_apply]
    simp (disch := decide) only [initDomain_other, initFirst_other]
    rfl

theorem ethernet_single {entries : List Ethernet.Entry} {cfgs : List (Nat × Ethernet.Config)}
    (h : Ethernet.build entries = .ok cfgs) : entries.length ≤ 1 :=
  match entries, h with
  | [], _ => Nat.zero_le 1
  | [_], _ => Nat.le_refl 1

theorem dfsdmClk_single {entries : List DfsdmClk.Entry} {cfgs : List (Nat × DfsdmClk.Config)}
    (h : DfsdmClk.build entries = .ok cfgs) : entries.length ≤ 1 := by
  unfold DfsdmClk.build at h
  split at h
  · cases h
  · omega

theorem size_eq (ctx : Ctx) (d : Domain) : ctx.size d = (ctx.entries d).length :=
  (List.length_map _).symm

theorem size_owners (ctx : Ctx) (d : Domain) : ctx.size d = (ctx.owners d).length :=
  (List.length_map _).symm

section Lookups

variable {extra : List Dma.Entry}

/-- The storage that `instance_of` names holds an instance of `cfg` where its size is that of
`init`. -/
theorem init_lookup (h : Built scheduler ctx cfg extra) (d : Domain) {i : Nat} (hi : i < ctx.size d) :
    init ctx cfg Memory.zero { domain := d, n := ctx.size d } i =
      if d = .dma ∧ extra ≠ [] then none else (cfg d)[i]? := by
  have hlen := order_length (h.cfgs d)
  rw [init_apply]
  · cases d with
    | dma =>
      rw [requests, List.length_append, ← size_eq] at hlen
      by_cases hextra : extra = []
      · subst hextra
        rw [if_pos ⟨hlen.symm, hi⟩, if_neg fun h => h.2 rfl]
      · have hpos := List.length_pos_iff.mpr hextra
        have hne : ctx.size .dma ≠ (cfg .dma).length := by omega
        rw [if_neg fun h => hne h.1, if_pos ⟨rfl, hextra⟩]
    | _ => rw [if_pos ⟨rfl, hi⟩, if_neg nofun]
  · rintro (rfl | rfl)
    · exact (size_eq ctx _).trans_le (ethernet_single (h.cfgs .ethernet))
    · exact (size_eq ctx _).trans_le (dfsdmClk_single (h.cfgs .dfsdmClk))

theorem own_iff (h : Built scheduler ctx cfg extra) {d : Domain} {i : Nat} {a : Address}
    (hi : i < ctx.size d) :
    (∃ r c, init ctx cfg Memory.zero { domain := d, n := ctx.size d } i = some (r, c) ∧
      (ctx.owners d)[r]? = some a) ↔
    (d = .dma → extra = []) ∧
      ∃ r, (order d (ctx.entries d))[i]? = some r ∧ (ctx.owners d)[r]? = some a := by
  rw [init_lookup h d hi]
  by_cases hdma : d = .dma ∧ extra ≠ []
  · rw [if_pos hdma]
    exact iff_of_false (fun ⟨_, _, hnone, _⟩ => nomatch hnone) fun hall => hdma.2 (hall.1 hdma.1)
  · rw [if_neg hdma]
    have hsame : requests ctx extra d = ctx.entries d := by
      cases d with
      | dma =>
        have hextra : extra = [] := by
          by_contra hne
          exact hdma ⟨rfl, hne⟩
        rw [requests, hextra, List.append_nil]
      | _ => rfl
    have horder := build_order (h.cfgs d)
    rw [hsame] at horder
    rw [← horder]
    constructor
    · rintro ⟨r, c, hget, howner⟩
      refine ⟨fun hd => by_contra fun hne => hdma ⟨hd, hne⟩, r, ?_, howner⟩
      rw [List.getElem?_map, hget]
      rfl
    · rintro ⟨-, r, hget, howner⟩
      rw [List.getElem?_map] at hget
      obtain ⟨⟨r', c⟩, hcfg, rfl⟩ := Option.map_eq_some_iff.mp hget
      exact ⟨r', c, hcfg, howner⟩

theorem lookup_exists {d : Domain} {a : Address} (h : a ∈ ctx.owners d) :
    ∃ ref, instanceOf ctx d a = .ok ref := by
  have hex : ∃ k, (ctx.owners d)[k]? = some a := List.mem_iff_getElem?.mp h
  classical
  exact ⟨⟨⟨d, ctx.size d⟩, Nat.find hex⟩, instanceOf_iff.mpr ⟨rfl, Nat.find_spec hex, fun _ => Nat.find_min hex⟩⟩

end Lookups

theorem domain_of_own {dev : Device} {d : Domain} (h : ownDomain dev = some d) : dev.domain = some d := by
  cases dev with
  | dma p streams =>
    cases streams with
    | nil => cases h
    | cons => exact h
  | _ => exact h

/-! ## Timers in their places -/

section InPlace

open Timers.Allocation Timers.Model Base.UnorderedRemove

theorem sweep_none {p : Nat → Bool} {l : List Nat} (h : ∀ x ∈ l, p x = false) : sweep p l = ([], l) := by
  induction l with
  | nil => exact sweep_nil p
  | cons x rest ih =>
    rw [sweep_cons_neg (h x List.mem_cons_self), ih fun y hy => h y (List.mem_cons_of_mem _ hy)]

theorem serviceOrder_general {requests : List Timers.Model.Entry}
    (h : ∀ i < requests.length, (entry requests i).isGeneralPurpose = true) :
    serviceOrder requests = List.range requests.length := by
  have hkinds : ∀ i < requests.length, (entry requests i).isSpecific = false ∧
      (entry requests i).isAny32bit = false := by
    intro i hi
    have hgeneral := h i hi
    rw [← (kinds _).2, Bool.and_eq_true_iff, Bool.not_eq_true', Bool.not_eq_true'] at hgeneral
    exact hgeneral.symm
  have hspecific : specificOrder requests = [] :=
    List.filter_eq_nil_iff.mpr fun i hi => by simp [(hkinds i (List.mem_range.mp hi)).1]
  have hcount : requests.countP Entry.isSpecific = 0 := by
    have hlen := congrArg List.length hspecific
    rwa [specificOrder, ← List.countP_eq_length_filter, countP_entry] at hlen
  have hwork : workList requests = List.range requests.length := by
    rw [workList, hcount, Nat.sub_zero]
    refine (List.map_congr_left fun j hj => ?_).trans (List.map_id _)
    rw [(hkinds j (List.mem_range.mp hj)).1]
    rfl
  rw [serviceOrder, hspecific, sorted, hwork, sweep_none]
  · rfl
  · exact fun i hi => (hkinds i (List.mem_range.mp hi)).2

/-- Requests that all leave the timer open are served in their places. -/
theorem timersInPlace_of_general (h : ∀ i < ctx.size .timer,
    (entry (ctx.entries .timer) i).isGeneralPurpose = true) : TimersInPlace ctx := by
  intro i a hget _
  refine ⟨i, ?_, hget⟩
  rw [size_eq] at h
  rw [serviceOrder_general h]
  refine List.getElem?_range ?_
  rw [← size_eq, size_owners]
  exact (List.getElem?_eq_some_iff.mp hget).1

end InPlace

/-! ## Main result -/

/-- **Board lookup**: every lookup of a board gives an instance that `init` initialised for
the device's own request when `build` adds no DMA entry, or no DMA request is on the board,
and the timer requests are served in their places. -/
theorem lookups_own_iff (scheduler : Timers.Model.SchedulerTimer) (objects : Nat → Device)
    (devs : List Nat) (ctx : Ctx) (cfg : ConfigBundle) (hctx : buildCtx objects devs = .ok ctx)
    (hcfg : Model.build scheduler ctx = .ok cfg) :
    (∀ dev ∈ devs, LooksUpOwn objects ctx cfg dev) ↔
      (DmaRequested ctx ∨ ∀ dev ∈ devs, ownDomain (objects dev) ≠ some .dma) ∧ TimersInPlace ctx := by
  obtain ⟨extra, hbuilt⟩ := built hcfg
  constructor
  · intro hall
    refine ⟨or_iff_not_imp_right.mpr fun hsome => ?_, fun i a hget hfirst => ?_⟩
    · push Not at hsome
      obtain ⟨dev, hmem, hown⟩ := hsome
      obtain ⟨⟨s, i⟩, hlook⟩ := lookup_exists (registered hctx hmem hown)
      obtain ⟨hs, hget, -⟩ := instanceOf_iff.mp hlook
      obtain rfl : s = { domain := .dma, n := ctx.size .dma } := hs
      have hi : i < ctx.size .dma := by
        rw [size_owners]
        exact (List.getElem?_eq_some_iff.mp hget).1
      have hinst := hall dev hmem _ _ (domain_of_own hown) hlook
      exact (extra_nil hbuilt).mp (((own_iff hbuilt hi).mp hinst).1 rfl)
    · obtain ⟨dev, hmem, rfl, hown⟩ := owner_request hctx (by decide) (List.mem_of_getElem? hget)
      have hi : i < ctx.size .timer := by
        rw [size_owners]
        exact (List.getElem?_eq_some_iff.mp hget).1
      have hlook : instanceOf ctx .timer { object := dev } = .ok ⟨⟨.timer, ctx.size .timer⟩, i⟩ :=
        instanceOf_iff.mpr ⟨rfl, hget, hfirst⟩
      exact ((own_iff hbuilt hi).mp (hall dev hmem _ _ (domain_of_own hown) hlook)).2
  · rintro ⟨hdma, htimers⟩ dev hmem d ⟨s, i⟩ - hlook
    obtain ⟨hs, hget, hfirst⟩ := instanceOf_iff.mp hlook
    obtain rfl : s = { domain := d, n := ctx.size d } := hs
    have hi : i < ctx.size d := by
      rw [size_owners]
      exact (List.getElem?_eq_some_iff.mp hget).1
    refine (own_iff hbuilt hi).mpr ⟨fun hd => ?_, ?_⟩
    · subst hd
      have hown := (owner_own hctx (List.mem_of_getElem? hget)).2
      exact (extra_nil hbuilt).mpr (hdma.resolve_right fun hnone => hnone dev hmem hown)
    · cases d with
      | timer => exact htimers i _ hget hfirst
      | _ => exact ⟨i, List.getElem?_range (size_eq ctx _ ▸ hi), hget⟩

/-- A DMA request for the converter that the board uses, a channel of it and a timer. -/
def converterBoard : Nat → Device
  | 0 => .dma .adc1 [none]
  | 1 => .adc { port := 5, pin := 11 } .adc1 2
  | _ => .timer [] {}

theorem lookups_own_converter : ∃ ctx cfg, buildCtx converterBoard [0, 1, 2] = .ok ctx ∧
    Model.build {} ctx = .ok cfg ∧ ∀ dev ∈ [0, 1, 2], LooksUpOwn converterBoard ctx cfg dev := by
  refine ⟨_, _, rfl, rfl, (lookups_own_iff {} converterBoard [0, 1, 2] _ _ rfl rfl).mpr ⟨.inl ?_, ?_⟩⟩
  · exact ⟨by decide, by decide⟩
  · exact timersInPlace_of_general (by decide)

/-- A DMA request for I2C beside a channel of a converter. -/
def sensorBoard : Nat → Device
  | 0 => .dma .i2c1 [none]
  | _ => .adc { port := 5, pin := 11 } .adc1 2

/-- The storage of two DMA instances is initialised, and that of one is handed out. -/
theorem sensorBoard_dma : ¬ ∀ scheduler objects devs ctx cfg, buildCtx objects devs = .ok ctx →
    Model.build scheduler ctx = .ok cfg → ∀ dev ∈ devs, LooksUpOwn objects ctx cfg dev := by
  intro hall
  obtain ⟨r, c, hinit, -⟩ := hall {} sensorBoard [0, 1] _ _ rfl rfl 0 (by decide) .dma ⟨⟨.dma, 1⟩, 0⟩ rfl rfl
  cases hinit

end StLib.Board.Lookup
