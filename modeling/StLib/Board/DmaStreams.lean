import Mathlib.Data.Fin.VecNotation
import Mathlib.Data.Fintype.Card
import Mathlib.Data.List.Forall2
import StLib.Board.DmaContributions

/-! # The streams of the DMA requests

`DMADomain::build` with the interrupts of the streams: which lists it accepts, and which
stream and which interrupt each request gets. -/
namespace StLib.Board.DmaStreams

open Domains
open DmaModel (Numbers)
open DmaContributions (forall₂_getElem? forall₂_getElem?_right assignStreams_spec build_spec)
open Lookup (map_ok)
open Timers.Allocation (bind_ok)

/-- The values that the HAL gives `DMA1_Stream0_IRQn` to `DMA2_Stream7_IRQn`. -/
abbrev StreamIrqns := Fin Dma.maxStreams → Int

/-- The values in `stm32h7xx_hal_mock.h`. -/
def mockIrqns : StreamIrqns :=
  ![11, 12, 13, 14, 15, 16, 17, 47, 56, 57, 58, 59, 60, 61, 62, 63]

variable (irqns : StreamIrqns)

def getIrqn : Dma.Stream → Int
  | none => 0
  | some s => irqns s

structure Entry extends Dma.Entry where
  irqn : Int

/-- What the constructor of `DMA` and the contributions of the ADC and the DFSDM make of a
request. -/
def Entry.construct (request : Dma.Entry) : Entry :=
  { request with irqn := getIrqn irqns request.stream }

structure Config extends DmaModel.Config where
  irqn : Int
  nvicEnabled : Bool

def getNvicEnabled (p : Dma.Peripheral) : Bool := p ∉ [.adc1, .adc2, .adc3]

/-- The second pass. -/
def assignStreams (used : Dma.UsedStreams) : List Entry → Except String (List Entry)
  | [] => .ok []
  | e :: rest =>
    match e.stream, Dma.firstFree used with
    | some _, _ => (assignStreams used rest).map (e :: ·)
    | none, none => .error "Not enough DMA streams available"
    | none, some s =>
      (assignStreams (Function.update used s true) rest).map
        ({ e with stream := some s, irqn := getIrqn irqns (some s) } :: ·)

variable (number : Numbers)

/-- The last pass. -/
def configure : List Entry → Except String (List Config)
  | [] => .ok []
  | e :: rest => do
    let dmaInit ← DmaModel.initStruct number e.peripheral e.id
    let cfgs ← configure rest
    return { peripheral := e.peripheral
             dmaInit := dmaInit
             stream := e.stream
             irqn := e.irqn
             id := e.id
             nvicEnabled := getNvicEnabled e.peripheral } :: cfgs

/-- `DMADomain::build<N>`. -/
def build (n : Nat) (instances : List Entry) : Except String (List Config) := do
  if instances.length ≠ n then throw "DMA entry count mismatch"
  let used ← Dma.markStreams (fun _ => false) (instances.map Entry.toEntry)
  let ents ← assignStreams irqns used instances
  checkEarlier (fun prev e => prev.stream == e.stream) "DMA stream already in use" ents
  configure number ents

/-! ## The streams in use -/

/-- The streams that the requests name. -/
def explicit (requests : List Dma.Entry) : List (Fin Dma.maxStreams) := requests.filterMap (·.stream)

/-- The requests that name no stream. -/
def automatic (requests : List Dma.Entry) : List Dma.Entry := requests.filter (·.stream = none)

def free (used : Dma.UsedStreams) : Finset (Fin Dma.maxStreams) := Finset.univ.filter (used · = false)

/-- No stream is named twice, and none that is in use. -/
structure Claimable (used : Dma.UsedStreams) (requests : List Dma.Entry) : Prop where
  nodup : (explicit requests).Nodup
  free : ∀ s ∈ explicit requests, s ∈ free used

section Streams

variable {used : Dma.UsedStreams} {requests ents : List Dma.Entry} {e : Dma.Entry}
  {s : Fin Dma.maxStreams}

theorem explicit_none (h : e.stream = none) : explicit (e :: requests) = explicit requests :=
  List.filterMap_cons_none h

theorem explicit_some (h : e.stream = some s) : explicit (e :: requests) = s :: explicit requests :=
  List.filterMap_cons_some h

theorem automatic_none (h : e.stream = none) : automatic (e :: requests) = e :: automatic requests :=
  List.filter_cons_of_pos (decide_eq_true h)

theorem automatic_some (h : e.stream = some s) : automatic (e :: requests) = automatic requests :=
  List.filter_cons_of_neg (by simp [h])

theorem length_eq (requests : List Dma.Entry) :
    requests.length = (explicit requests).length + (automatic requests).length := by
  induction requests with
  | nil => rfl
  | cons e rest ih =>
    cases hs : e.stream with
    | none =>
      rw [explicit_none hs, automatic_none hs, List.length_cons, List.length_cons, ih, Nat.add_assoc]
    | some s =>
      rw [explicit_some hs, automatic_some hs, List.length_cons, List.length_cons, ih,
        Nat.add_right_comm]

theorem mem_free : s ∈ free used ↔ used s = false := by simp [free]

theorem firstFree_some (h : Dma.firstFree used = some s) : s ∈ free used := by
  have hs := List.find?_some h
  exact mem_free.mpr (by simpa using hs)

theorem firstFree_none (h : Dma.firstFree used = none) : free used = ∅ := by
  refine Finset.eq_empty_of_forall_notMem fun s hs => ?_
  have hused := List.find?_eq_none.mp h s (List.mem_finRange s)
  rw [mem_free.mp hs] at hused
  exact hused rfl

theorem free_update (s : Fin Dma.maxStreams) :
    free (Function.update used s true) = (free used).erase s := by
  ext t
  rw [mem_free, Finset.mem_erase, mem_free]
  by_cases ht : t = s
  · rw [ht, Function.update_self]
    simp
  · rw [Function.update_of_ne ht]
    exact (and_iff_right ht).symm

theorem claimable_none (h : e.stream = none) :
    Claimable used (e :: requests) ↔ Claimable used requests := by
  constructor
  · rintro ⟨hnodup, hfree⟩
    rw [explicit_none h] at hnodup hfree
    exact ⟨hnodup, hfree⟩
  · rintro ⟨hnodup, hfree⟩
    rw [← explicit_none h] at hnodup hfree
    exact ⟨hnodup, hfree⟩

theorem claimable_some (h : e.stream = some s) : Claimable used (e :: requests) ↔
    s ∈ free used ∧ Claimable (Function.update used s true) requests := by
  constructor
  · rintro ⟨hnodup, hfree⟩
    rw [explicit_some h] at hnodup hfree
    obtain ⟨hnew, hnodup⟩ := List.nodup_cons.mp hnodup
    refine ⟨hfree s List.mem_cons_self, hnodup, fun t ht => ?_⟩
    rw [free_update]
    exact Finset.mem_erase.mpr ⟨fun heq => hnew (heq ▸ ht), hfree t (List.mem_cons_of_mem _ ht)⟩
  · rintro ⟨hs, hnodup, hfree⟩
    rw [free_update] at hfree
    refine ⟨?_, ?_⟩
    · rw [explicit_some h]
      exact List.nodup_cons.mpr ⟨fun hmem => (Finset.mem_erase.mp (hfree s hmem)).1 rfl, hnodup⟩
    · rw [explicit_some h]
      exact List.forall_mem_cons.mpr ⟨hs, fun t ht => Finset.mem_of_mem_erase (hfree t ht)⟩

/-- The first pass takes the streams that are named. -/
theorem markStreams_ok (h : Claimable used requests) : ∃ marked,
    Dma.markStreams used requests = .ok marked ∧
      free marked = free used \ (explicit requests).toFinset := by
  induction requests generalizing used with
  | nil => exact ⟨used, rfl, (Finset.sdiff_empty).symm⟩
  | cons e rest ih =>
    cases hs : e.stream with
    | none =>
      rw [Dma.markStreams, hs, explicit_none hs]
      exact ih ((claimable_none hs).mp h)
    | some s =>
      obtain ⟨hfree, hrest⟩ := (claimable_some hs).mp h
      obtain ⟨marked, hmarked, hleft⟩ := ih hrest
      refine ⟨marked, ?_, ?_⟩
      · rw [Dma.markStreams, hs]
        change (if used s = true then _ else _) = _
        rw [if_neg (by rw [mem_free.mp hfree]; exact Bool.false_ne_true), hmarked]
      · rw [hleft, free_update, explicit_some hs, List.toFinset_cons, Finset.sdiff_insert,
          Finset.erase_sdiff_comm]

theorem markStreams_error (h : ¬ Claimable used requests) :
    ∃ message, Dma.markStreams used requests = .error message := by
  induction requests generalizing used with
  | nil => exact absurd ⟨List.nodup_nil, fun s hs => absurd hs List.not_mem_nil⟩ h
  | cons e rest ih =>
    cases hs : e.stream with
    | none =>
      rw [Dma.markStreams, hs]
      exact ih fun hrest => h ((claimable_none hs).mpr hrest)
    | some s =>
      rw [Dma.markStreams, hs]
      change ∃ message, (if used s = true then _ else _) = Except.error message
      split
      · exact ⟨_, rfl⟩
      · next hused =>
        exact ih fun hrest => h ((claimable_some hs).mpr ⟨mem_free.mpr (by simpa using hused), hrest⟩)

/-- The second pass needs a free stream for each request that names none. -/
theorem assignStreams_ok (h : (automatic requests).length ≤ (free used).card) :
    ∃ ents, Dma.assignStreams used requests = .ok ents := by
  induction requests generalizing used with
  | nil => exact ⟨[], rfl⟩
  | cons e rest ih =>
    rw [Dma.assignStreams]
    cases hs : e.stream with
    | some s =>
      rw [automatic_some hs] at h
      obtain ⟨ents, hents⟩ := ih h
      exact ⟨e :: ents, by rw [hents]; rfl⟩
    | none =>
      rw [automatic_none hs, List.length_cons] at h
      cases hfree : Dma.firstFree used with
      | none =>
        rw [firstFree_none hfree, Finset.card_empty] at h
        exact absurd h (Nat.not_succ_le_zero _)
      | some s =>
        have hcard := Finset.card_erase_add_one (firstFree_some hfree)
        rw [← free_update] at hcard
        have hroom : (automatic rest).length ≤ (free (Function.update used s true)).card := by omega
        obtain ⟨ents, hents⟩ := ih hroom
        exact ⟨{ e with stream := some s } :: ents, by dsimp only; rw [hents]; rfl⟩

theorem assignStreams_error (h : (free used).card < (automatic requests).length) :
    ∃ message, Dma.assignStreams used requests = .error message := by
  induction requests generalizing used with
  | nil => exact absurd h (Nat.not_lt_zero _)
  | cons e rest ih =>
    rw [Dma.assignStreams]
    cases hs : e.stream with
    | some s =>
      rw [automatic_some hs] at h
      obtain ⟨message, hmessage⟩ := ih h
      exact ⟨message, by rw [hmessage]; rfl⟩
    | none =>
      rw [automatic_none hs, List.length_cons] at h
      cases hfree : Dma.firstFree used with
      | none => exact ⟨_, rfl⟩
      | some s =>
        have hcard := Finset.card_erase_add_one (firstFree_some hfree)
        rw [← free_update] at hcard
        have hroom : (free (Function.update used s true)).card < (automatic rest).length := by omega
        obtain ⟨message, hmessage⟩ := ih hroom
        exact ⟨message, by dsimp only; rw [hmessage]; rfl⟩

/-- A stream of the second pass is one that a request names or one that was free. -/
theorem assignStreams_nodup (h : Dma.assignStreams used requests = .ok ents)
    (hnodup : (explicit requests).Nodup) (hused : ∀ s ∈ explicit requests, s ∉ free used) :
    (ents.map Dma.Entry.stream).Nodup ∧
      ∀ e ∈ ents, ∃ s, e.stream = some s ∧ (s ∈ explicit requests ∨ s ∈ free used) := by
  induction requests generalizing used ents with
  | nil =>
    obtain rfl := Except.ok.inj h
    exact ⟨List.nodup_nil, fun e he => absurd he List.not_mem_nil⟩
  | cons e rest ih =>
    rw [Dma.assignStreams] at h
    cases hs : e.stream with
    | some s =>
      rw [hs] at h
      obtain ⟨l, hl, rfl⟩ := map_ok h
      rw [explicit_some hs] at hnodup hused ⊢
      obtain ⟨hnew, hnodup⟩ := List.nodup_cons.mp hnodup
      obtain ⟨hstreams, hfrom⟩ := ih hl hnodup fun t ht => hused t (List.mem_cons_of_mem _ ht)
      refine ⟨List.nodup_cons.mpr ⟨fun hmem => ?_, hstreams⟩,
        List.forall_mem_cons.mpr ⟨⟨s, hs, .inl List.mem_cons_self⟩, ?_⟩⟩
      · obtain ⟨e', he', heq⟩ := List.mem_map.mp hmem
        obtain ⟨t, ht, hcase⟩ := hfrom e' he'
        obtain rfl := Option.some.inj ((ht.symm.trans heq).trans hs)
        exact hcase.elim hnew (hused t List.mem_cons_self)
      · intro e' he'
        obtain ⟨t, ht, hcase⟩ := hfrom e' he'
        exact ⟨t, ht, hcase.imp_left (List.mem_cons_of_mem _)⟩
    | none =>
      rw [hs] at h
      rw [explicit_none hs] at hnodup hused ⊢
      cases hfree : Dma.firstFree used with
      | none =>
        rw [hfree] at h
        cases h
      | some s =>
        rw [hfree] at h
        obtain ⟨l, hl, rfl⟩ := map_ok h
        have hs := firstFree_some hfree
        obtain ⟨hstreams, hfrom⟩ := ih hl hnodup fun t ht hleft => by
          rw [free_update] at hleft
          exact hused t ht (Finset.mem_of_mem_erase hleft)
        rw [free_update] at hfrom
        refine ⟨List.nodup_cons.mpr ⟨fun hmem => ?_, hstreams⟩,
          List.forall_mem_cons.mpr ⟨⟨s, rfl, .inr hs⟩, ?_⟩⟩
        · obtain ⟨e', he', heq⟩ := List.mem_map.mp hmem
          obtain ⟨t, ht, hcase⟩ := hfrom e' he'
          obtain rfl := Option.some.inj (ht.symm.trans heq)
          rcases hcase with hcase | hcase
          · exact hused t hcase hs
          · exact (Finset.mem_erase.mp hcase).1 rfl
        · intro e' he'
          obtain ⟨t, ht, hcase⟩ := hfrom e' he'
          exact ⟨t, ht, hcase.imp_right Finset.mem_of_mem_erase⟩

theorem free_none : free (fun _ => false) = Finset.univ := by
  ext s
  exact ⟨fun _ => Finset.mem_univ s, fun _ => mem_free.mpr rfl⟩

theorem claimable_start : Claimable (fun _ => false) requests ↔ (explicit requests).Nodup :=
  ⟨Claimable.nodup, fun h => ⟨h, fun _ _ => mem_free.mpr rfl⟩⟩

/-- The streams that are left are as many as the requests may still need. -/
theorem left_card (hnodup : (explicit requests).Nodup) :
    (Finset.univ \ (explicit requests).toFinset).card = Dma.maxStreams - (explicit requests).length := by
  rw [Finset.card_univ_sdiff, List.toFinset_card_of_nodup hnodup, Fintype.card_fin]

theorem configure_ok (number : Numbers)
    (h : ∀ e ∈ ents, ∃ request, DmaModel.getRequest e.peripheral e.id = .ok request) :
    ∃ cfgs, DmaModel.configure number ents = .ok cfgs := by
  induction ents with
  | nil => exact ⟨[], rfl⟩
  | cons e rest ih =>
    obtain ⟨hfirst, hrest⟩ := List.forall_mem_cons.mp h
    obtain ⟨request, hrequest⟩ := hfirst
    obtain ⟨cfgs, hcfgs⟩ := ih hrest
    rw [DmaModel.configure, DmaModel.initStruct, hrequest, hcfgs]
    exact ⟨_, rfl⟩

theorem build_ok (number : Numbers) (hnodup : (explicit requests).Nodup)
    (hroom : requests.length ≤ Dma.maxStreams)
    (hline : ∀ r ∈ requests, ∃ request, DmaModel.getRequest r.peripheral r.id = .ok request) :
    ∃ cfgs, DmaModel.build number requests.length requests = .ok cfgs := by
  obtain ⟨marked, hmarked, hleft⟩ := markStreams_ok (claimable_start.mpr hnodup)
  rw [free_none] at hleft
  have hcard := left_card hnodup
  have hlength := length_eq requests
  have henough : (automatic requests).length ≤ (free marked).card := by
    rw [hleft]
    omega
  obtain ⟨ents, hents⟩ := assignStreams_ok henough
  have hstreams := (assignStreams_nodup hents hnodup fun s hs => by
    rw [hleft]
    exact fun hmem => (Finset.mem_sdiff.mp hmem).2 (List.mem_toFinset.mpr hs)).1
  have hlines : ∀ e ∈ ents, ∃ request, DmaModel.getRequest e.peripheral e.id = .ok request := by
    intro e he
    obtain ⟨i, hi⟩ := List.mem_iff_getElem?.mp he
    obtain ⟨r, hr, s, rfl, -⟩ := forall₂_getElem?_right (assignStreams_spec hents) hi
    exact hline r (List.mem_of_getElem? hr)
  obtain ⟨cfgs, hcfgs⟩ := configure_ok number hlines
  refine ⟨cfgs, ?_⟩
  have hcheck : checkEarlier (fun prev e => prev.stream == e.stream) "DMA stream already in use" ents =
      .ok () := if_pos ((List.pairwise_map.mp hstreams).imp fun hne => beq_false_of_ne hne)
  rw [DmaModel.build, if_neg (not_not_intro rfl), hmarked]
  change (Dma.assignStreams marked requests >>= fun ents => _) = _
  rw [hents]
  change (checkEarlier _ _ ents >>= fun _ => _) = _
  rw [hcheck]
  exact hcfgs

theorem build_error (number : Numbers)
    (h : ¬ (explicit requests).Nodup ∨ Dma.maxStreams < requests.length) :
    ∃ message, DmaModel.build number requests.length requests = .error message := by
  rw [DmaModel.build, if_neg (not_not_intro rfl)]
  by_cases hnodup : (explicit requests).Nodup
  · obtain ⟨marked, hmarked, hleft⟩ := markStreams_ok (claimable_start.mpr hnodup)
    rw [free_none] at hleft
    have hroom := h.resolve_left (not_not_intro hnodup)
    have hcard := left_card hnodup
    have hlength := length_eq requests
    have hclaimed : (explicit requests).length ≤ Dma.maxStreams := by
      rw [← List.toFinset_card_of_nodup hnodup]
      exact (Finset.card_le_univ _).trans (Fintype.card_fin _).le
    have hshort : (free marked).card < (automatic requests).length := by
      rw [hleft]
      omega
    obtain ⟨message, hmessage⟩ := assignStreams_error hshort
    rw [hmarked]
    change ∃ m, (Dma.assignStreams marked requests >>= fun ents => _) = Except.error m
    rw [hmessage]
    exact ⟨message, rfl⟩
  · obtain ⟨message, hmessage⟩ := markStreams_error fun hclaim => hnodup (claimable_start.mp hclaim)
    rw [hmessage]
    exact ⟨message, rfl⟩

end Streams

/-! ## The interrupts -/

section Interrupts

variable {irqns : StreamIrqns} {number : Numbers} {used : Dma.UsedStreams} {entries ents : List Entry}

/-- The interrupts have no part in the choice of the streams. -/
theorem assignStreams_toEntry (used : Dma.UsedStreams) (entries : List Entry) :
    (assignStreams irqns used entries).map (List.map Entry.toEntry) =
      Dma.assignStreams used (entries.map Entry.toEntry) := by
  induction entries generalizing used with
  | nil => rfl
  | cons e rest ih =>
    rw [assignStreams, List.map_cons, Dma.assignStreams]
    cases e.stream with
    | some s =>
      dsimp only
      rw [← ih]
      cases assignStreams irqns used rest <;> rfl
    | none =>
      cases Dma.firstFree used with
      | none => rfl
      | some s =>
        dsimp only
        rw [← ih]
        cases assignStreams irqns (Function.update used s true) rest <;> rfl

theorem configure_toConfig (entries : List Entry) :
    (configure number entries).map (List.map Config.toConfig) =
      DmaModel.configure number (entries.map Entry.toEntry) := by
  induction entries with
  | nil => rfl
  | cons e rest ih =>
    rw [configure, List.map_cons, DmaModel.configure, ← ih]
    cases DmaModel.initStruct number e.peripheral e.id with
    | error m => rfl
    | ok dmaInit => cases configure number rest <;> rfl

theorem checkEarlier_toEntry (message : String) (entries : List Entry) :
    checkEarlier (fun prev e => prev.stream == e.stream) message (entries.map Entry.toEntry) =
      checkEarlier (fun prev e => prev.stream == e.stream) message entries := by
  unfold checkEarlier
  simp only [List.pairwise_map]

theorem build_toConfig (irqns : StreamIrqns) (number : Numbers) (n : Nat) (entries : List Entry) :
    (build irqns number n entries).map (List.map Config.toConfig) =
      DmaModel.build number n (entries.map Entry.toEntry) := by
  rw [build, DmaModel.build, List.length_map]
  split
  · rfl
  · cases Dma.markStreams (fun _ => false) (entries.map Entry.toEntry) with
    | error m => rfl
    | ok used =>
      change Except.map _ (assignStreams irqns used entries >>= fun ents => _) =
        (Dma.assignStreams used (entries.map Entry.toEntry) >>= fun ents => _)
      rw [← assignStreams_toEntry]
      cases assignStreams irqns used entries with
      | error m => rfl
      | ok ents =>
        change Except.map _ (checkEarlier _ _ ents >>= fun _ => _) =
          (checkEarlier _ _ (ents.map Entry.toEntry) >>= fun _ => _)
        rw [checkEarlier_toEntry]
        cases checkEarlier (fun prev e : Entry => prev.stream == e.stream)
          "DMA stream already in use" ents with
        | error m => rfl
        | ok u => exact configure_toConfig ents

/-- Each pass keeps the interrupt of the stream. -/
theorem assignStreams_irqn (h : assignStreams irqns used entries = .ok ents)
    (hirqn : ∀ e ∈ entries, e.irqn = getIrqn irqns e.stream) :
    ∀ e ∈ ents, e.irqn = getIrqn irqns e.stream := by
  induction entries generalizing used ents with
  | nil =>
    obtain rfl := Except.ok.inj h
    exact hirqn
  | cons e rest ih =>
    obtain ⟨hfirst, hrest⟩ := List.forall_mem_cons.mp hirqn
    rw [assignStreams] at h
    cases hs : e.stream with
    | some s =>
      rw [hs] at h
      obtain ⟨l, hl, rfl⟩ := map_ok h
      exact List.forall_mem_cons.mpr ⟨hfirst, ih hl hrest⟩
    | none =>
      rw [hs] at h
      cases hfree : Dma.firstFree used with
      | none =>
        rw [hfree] at h
        cases h
      | some s =>
        rw [hfree] at h
        obtain ⟨l, hl, rfl⟩ := map_ok h
        exact List.forall_mem_cons.mpr ⟨rfl, ih hl hrest⟩

theorem configure_irqn {cfgs : List Config} (h : configure number ents = .ok cfgs)
    (hirqn : ∀ e ∈ ents, e.irqn = getIrqn irqns e.stream) :
    ∀ c ∈ cfgs, c.irqn = getIrqn irqns c.stream := by
  induction ents generalizing cfgs with
  | nil =>
    obtain rfl := Except.ok.inj h
    exact fun c hc => absurd hc List.not_mem_nil
  | cons e rest ih =>
    obtain ⟨hfirst, hrest⟩ := List.forall_mem_cons.mp hirqn
    obtain ⟨dmaInit, -, h⟩ := bind_ok h
    obtain ⟨l, hl, h⟩ := bind_ok h
    obtain rfl := Except.ok.inj h
    exact List.forall_mem_cons.mpr ⟨hfirst, ih hl hrest⟩

theorem build_irqn {n : Nat} {cfgs : List Config} (h : build irqns number n entries = .ok cfgs)
    (hirqn : ∀ e ∈ entries, e.irqn = getIrqn irqns e.stream) :
    ∀ c ∈ cfgs, c.irqn = getIrqn irqns c.stream := by
  rw [build] at h
  split at h
  · cases h
  · obtain ⟨used, -, h⟩ := bind_ok h
    obtain ⟨ents, hents, h⟩ := bind_ok h
    obtain ⟨u, -, h⟩ := bind_ok h
    exact configure_irqn h (assignStreams_irqn hents hirqn)

end Interrupts

/-! ## The assignment -/

/-- A configuration for a request. -/
structure Serves (irqns : StreamIrqns) (r : Dma.Entry) (c : Config) : Prop where
  peripheral : c.peripheral = r.peripheral
  id : c.id = r.id
  stream : ∃ s, c.stream = some s ∧ c.irqn = irqns s
  explicit : ∀ s, r.stream = some s → c.stream = some s

structure Assigned (irqns : StreamIrqns) (requests : List Dma.Entry) (cfgs : List Config) : Prop where
  serves : List.Forall₂ (Serves irqns) requests cfgs
  distinct : (cfgs.map fun c => c.stream).Nodup
  avoids : ∀ (i : Nat) (r : Dma.Entry) (c : Config), requests[i]? = some r → cfgs[i]? = some c →
    r.stream = none → ∀ other ∈ requests, other.stream ≠ c.stream

section Assignment

variable {irqns : StreamIrqns} {number : Numbers} {requests : List Dma.Entry} {cfgs : List Config}

theorem construct_toEntry (requests : List Dma.Entry) :
    (requests.map (Entry.construct irqns)).map Entry.toEntry = requests := by
  rw [List.map_map]
  exact List.map_id requests

/-- A stream that an explicit request names stands at its own place only. -/
theorem avoids (hserves : List.Forall₂ (Serves irqns) requests cfgs)
    (hdistinct : (cfgs.map fun c => c.stream).Nodup) {i : Nat} {r other : Dma.Entry} {c : Config}
    (hr : requests[i]? = some r) (hc : cfgs[i]? = some c) (hnone : r.stream = none)
    (hother : other ∈ requests) : other.stream ≠ c.stream := by
  intro heq
  obtain ⟨c', hc', hserve⟩ := forall₂_getElem? hserves hr
  obtain rfl := Option.some.inj (hc.symm.trans hc')
  obtain ⟨s, hs, -⟩ := hserve.stream
  obtain ⟨j, hj⟩ := List.mem_iff_getElem?.mp hother
  obtain ⟨d, hd, hserves'⟩ := forall₂_getElem? hserves hj
  have hsame := hserves'.explicit s (heq.trans hs)
  have hlt : i < (cfgs.map fun c => c.stream).length := by
    rw [List.length_map]
    exact (List.getElem?_eq_some_iff.mp hc).1
  obtain rfl : i = j := by
    refine (List.getElem?_inj hlt hdistinct).mp ?_
    rw [List.getElem?_map, List.getElem?_map, hc, hd, Option.map_some, Option.map_some, hs, hsame]
  obtain rfl := Option.some.inj (hr.symm.trans hj)
  rw [hnone, hs] at heq
  cases heq

theorem build_assigned
    (h : build irqns number requests.length (requests.map (Entry.construct irqns)) = .ok cfgs) :
    Assigned irqns requests cfgs := by
  have hplain := build_toConfig irqns number requests.length
    (requests.map (Entry.construct irqns))
  rw [h, construct_toEntry] at hplain
  obtain ⟨hconfigures, hdistinct⟩ := build_spec hplain.symm
  rw [List.map_map] at hdistinct
  have hirqn := build_irqn h fun e he => by
    obtain ⟨r, -, rfl⟩ := List.mem_map.mp he
    rfl
  have hserves : List.Forall₂ (Serves irqns) requests cfgs := by
    have hboth := (List.forall₂_and_left cfgs requests).mpr
      ⟨hirqn, (List.forall₂_map_right_iff.mp hconfigures).flip⟩
    refine hboth.flip.imp fun r c hrc => ?_
    obtain ⟨hirq, hp, hid, -, s, hs, hsame⟩ := hrc
    have hstream : c.stream = some s := hs
    rw [hstream] at hirq
    exact ⟨hp, hid, ⟨s, hstream, hirq⟩, fun s' hs' => hsame s' hs' ▸ hstream⟩
  exact ⟨hserves, hdistinct, fun i r c hr hc hnone other hother =>
    avoids hserves hdistinct hr hc hnone hother⟩

end Assignment

/-- **Stream assignment.** Of requests with a request line, each gets a stream of its own with
the interrupt of the stream, the one it names if it names one, and else one that no request
names. The requests are rejected if and only if two name one stream or there are more of them
than streams. -/
theorem streams_assigned (irqns : StreamIrqns) (number : Numbers) (requests : List Dma.Entry)
    (hline : ∀ r ∈ requests, ∃ request, DmaModel.getRequest r.peripheral r.id = .ok request) :
    (∀ cfgs, build irqns number requests.length (requests.map (Entry.construct irqns)) = .ok cfgs →
      Assigned irqns requests cfgs) ∧
    ((∃ message, build irqns number requests.length (requests.map (Entry.construct irqns)) =
        .error message) ↔
      ¬ (explicit requests).Nodup ∨ Dma.maxStreams < requests.length) := by
  refine ⟨fun cfgs h => build_assigned h, ?_⟩
  have hplain := build_toConfig irqns number requests.length
    (requests.map (Entry.construct irqns))
  rw [construct_toEntry] at hplain
  constructor
  · rintro ⟨message, h⟩
    rw [h] at hplain
    by_contra hfits
    rw [not_or, not_not, not_lt] at hfits
    obtain ⟨cfgs, hcfgs⟩ := build_ok number hfits.1 hfits.2 hline
    rw [hcfgs] at hplain
    cases hplain
  · intro h
    obtain ⟨message, hmessage⟩ := build_error number h
    rw [hmessage] at hplain
    cases hbuild : build irqns number requests.length (requests.map (Entry.construct irqns)) with
    | error m => exact ⟨m, rfl⟩
    | ok cfgs =>
      rw [hbuild] at hplain
      cases hplain

/-- An automatic request before the one that names the first stream. -/
def mixedRequests : List Dma.Entry :=
  [{ peripheral := .adc1, stream := none, id := 0 },
    { peripheral := .spi3, stream := some 0, id := 0 },
    { peripheral := .adc2, stream := none, id := 0 }]

theorem streams_assigned_mixed : ∃ cfgs,
    build mockIrqns DmaModel.mockNumbers 3 (mixedRequests.map (Entry.construct mockIrqns)) = .ok cfgs ∧
      Assigned mockIrqns mixedRequests cfgs ∧
      cfgs.map (fun c => c.stream) = [some 1, some 0, some 2] := by
  have hrun : (build mockIrqns DmaModel.mockNumbers 3 (mixedRequests.map (Entry.construct mockIrqns))).map
      (List.map fun c => c.stream) = .ok [some 1, some 0, some 2] := by decide +kernel
  obtain ⟨cfgs, hcfgs, hstreams⟩ := map_ok hrun
  refine ⟨cfgs, hcfgs, (streams_assigned mockIrqns DmaModel.mockNumbers mixedRequests ?_).1 cfgs hcfgs,
    hstreams.symm⟩
  intro r hr
  rcases hr with _ | ⟨_, _ | ⟨_, _ | ⟨_, hr⟩⟩⟩
  · exact ⟨_, rfl⟩
  · exact ⟨_, rfl⟩
  · exact ⟨_, rfl⟩
  · cases hr

end StLib.Board.DmaStreams
