import StLib.Base.OccurrenceRank
import StLib.Board.DmaModel
import StLib.Timers.Allocation

/-! # The configurations of the ADC domain

`resolve_mapping` and `build` of `ADCDomain`. A compile error is an error with its text.
Every enumerator is a valid channel. What an instance writes its values to is left out. -/
namespace StLib.Adc.Build

open StLib.Base.OccurrenceRank
open StLib.Board
open StLib.Board.DmaModel (Numbers)
open StLib.Timers.Allocation (bind_ok)

/-! ## Entries -/

inductive Peripheral
  | auto
  | adc1
  | adc2
  | adc3
deriving DecidableEq

inductive Channel
  | auto
  | ch (n : Fin 20)
  | vrefint
  | tempsensor
  | vbat
deriving DecidableEq

inductive Resolution
  | bits16
  | bits14
  | bits12
  | bits10
  | bits8
deriving DecidableEq

inductive SampleTime
  | cycles1p5
  | cycles2p5
  | cycles8p5
  | cycles16p5
  | cycles32p5
  | cycles64p5
  | cycles387p5
  | cycles810p5
deriving DecidableEq

inductive ClockPrescaler
  | div1
  | div2
  | div4
  | div6
  | div8
  | div10
  | div12
  | div16
  | div32
  | div64
  | div128
  | div256
deriving DecidableEq

abbrev Pin := Domains.Gpio.Entry

structure Entry where
  gpioIdx : Nat
  pin : Pin
  peripheral : Peripheral := .auto
  channel : Channel := .auto
  resolution : Resolution := .bits12
  sampleTime : SampleTime := .cycles8p5
  prescaler : ClockPrescaler := .div1
  sampleRateHz : BitVec 32 := 0
deriving DecidableEq

structure Config where
  gpioIdx : Nat
  peripheral : Peripheral
  channel : Channel
  resolution : Resolution
  sampleTime : SampleTime
  prescaler : ClockPrescaler
  sampleRateHz : BitVec 32
  dmaRequest : BitVec 32
deriving DecidableEq

def maxChannelsPerPeripheral : Nat := 16

def maxInstances : Nat := 32

def peripheralIndex : Peripheral → Fin 3
  | .auto | .adc1 => 0
  | .adc2 => 1
  | .adc3 => 2

def dmaPeripheral : Peripheral → Domains.Dma.Peripheral
  | .auto | .adc1 => .adc1
  | .adc2 => .adc2
  | .adc3 => .adc3

def dmaRequest (number : Numbers) (p : Peripheral) : Except String (BitVec 32) :=
  (DmaModel.getRequest (dmaPeripheral p) 0).map number

/-! ## Mappings -/

def resolutionBits : Resolution → Nat
  | .bits16 => 16
  | .bits14 => 14
  | .bits12 => 12
  | .bits10 => 10
  | .bits8 => 8

def isInternalChannel (ch : Channel) : Bool := ch ∈ [.vrefint, .tempsensor, .vbat]

/-- The ADC of the internal channels; `hasAdc3` is `STLIB_HAS_ADC3`. -/
def dedicated (hasAdc3 : Bool) : Peripheral := if hasAdc3 then .adc3 else .adc2

def internalChannelAllowed (hasAdc3 : Bool) (p : Peripheral) (ch : Channel) : Bool :=
  !isInternalChannel ch || p = dedicated hasAdc3

def resolutionSupported (p : Peripheral) (r : Resolution) : Bool :=
  if p = .adc3 then resolutionBits r ≤ 12 else true

structure PinMapping where
  pin : Pin
  peripheral : Peripheral
  channel : Channel
  maxBits : Nat

def maxBitsAdc12 : Nat := 16

def maxBitsAdc3 : Nat := 12

def pa (pin : Nat) : Pin := { port := 0, pin }

def pb (pin : Nat) : Pin := { port := 1, pin }

def pc (pin : Nat) : Pin := { port := 2, pin }

def pf (pin : Nat) : Pin := { port := 5, pin }

def pinMap : List PinMapping :=
  [⟨pa 0, .adc1, .ch 16, maxBitsAdc12⟩, ⟨pa 1, .adc1, .ch 17, maxBitsAdc12⟩,
   ⟨pa 2, .adc1, .ch 14, maxBitsAdc12⟩, ⟨pa 3, .adc1, .ch 15, maxBitsAdc12⟩,
   ⟨pa 4, .adc1, .ch 18, maxBitsAdc12⟩, ⟨pa 5, .adc1, .ch 19, maxBitsAdc12⟩,
   ⟨pa 6, .adc1, .ch 3, maxBitsAdc12⟩, ⟨pa 7, .adc1, .ch 7, maxBitsAdc12⟩,
   ⟨pb 0, .adc1, .ch 9, maxBitsAdc12⟩, ⟨pb 1, .adc1, .ch 5, maxBitsAdc12⟩,
   ⟨pc 0, .adc1, .ch 10, maxBitsAdc12⟩, ⟨pc 1, .adc1, .ch 11, maxBitsAdc12⟩,
   ⟨pc 4, .adc1, .ch 4, maxBitsAdc12⟩, ⟨pc 5, .adc1, .ch 8, maxBitsAdc12⟩,
   ⟨pf 11, .adc1, .ch 2, maxBitsAdc12⟩, ⟨pf 12, .adc1, .ch 6, maxBitsAdc12⟩,
   ⟨pa 2, .adc2, .ch 14, maxBitsAdc12⟩, ⟨pa 3, .adc2, .ch 15, maxBitsAdc12⟩,
   ⟨pa 4, .adc2, .ch 18, maxBitsAdc12⟩, ⟨pa 5, .adc2, .ch 19, maxBitsAdc12⟩,
   ⟨pa 6, .adc2, .ch 3, maxBitsAdc12⟩, ⟨pa 7, .adc2, .ch 7, maxBitsAdc12⟩,
   ⟨pb 0, .adc2, .ch 9, maxBitsAdc12⟩, ⟨pb 1, .adc2, .ch 5, maxBitsAdc12⟩,
   ⟨pc 0, .adc2, .ch 10, maxBitsAdc12⟩, ⟨pc 1, .adc2, .ch 11, maxBitsAdc12⟩,
   ⟨pc 4, .adc2, .ch 4, maxBitsAdc12⟩, ⟨pc 5, .adc2, .ch 8, maxBitsAdc12⟩,
   ⟨pf 13, .adc2, .ch 2, maxBitsAdc12⟩, ⟨pf 14, .adc2, .ch 6, maxBitsAdc12⟩,
   ⟨pc 0, .adc3, .ch 10, maxBitsAdc3⟩, ⟨pc 1, .adc3, .ch 11, maxBitsAdc3⟩,
   ⟨pc 2, .adc3, .ch 0, maxBitsAdc3⟩, ⟨pc 3, .adc3, .ch 1, maxBitsAdc3⟩,
   ⟨pf 3, .adc3, .ch 5, maxBitsAdc3⟩, ⟨pf 4, .adc3, .ch 9, maxBitsAdc3⟩,
   ⟨pf 5, .adc3, .ch 4, maxBitsAdc3⟩, ⟨pf 6, .adc3, .ch 8, maxBitsAdc3⟩,
   ⟨pf 7, .adc3, .ch 3, maxBitsAdc3⟩, ⟨pf 8, .adc3, .ch 7, maxBitsAdc3⟩,
   ⟨pf 9, .adc3, .ch 2, maxBitsAdc3⟩, ⟨pf 10, .adc3, .ch 6, maxBitsAdc3⟩]

def preferenceScore (r : Resolution) (p : Peripheral) : Nat :=
  if resolutionBits r > 12 then
    match p with
    | .adc1 => 3
    | .adc2 => 2
    | .adc3 | .auto => 0
  else
    match p with
    | .adc3 => 3
    | .adc1 => 2
    | .adc2 => 1
    | .auto => 0

structure Best where
  score : Nat
  peripheral : Peripheral
  channel : Channel

def Entry.fits (e : Entry) (m : PinMapping) : Prop :=
  m.pin = e.pin ∧ (e.peripheral ≠ .auto → m.peripheral = e.peripheral) ∧
    (e.channel ≠ .auto → m.channel = e.channel) ∧ resolutionBits e.resolution ≤ m.maxBits

instance (e : Entry) (m : PinMapping) : Decidable (e.fits m) := inferInstanceAs (Decidable (_ ∧ _))

/-- A mapping in the loop; no best one is `found` that is false. -/
def consider (e : Entry) (best : Option Best) (m : PinMapping) : Option Best :=
  if e.fits m then
    let score := preferenceScore e.resolution m.peripheral
    match best with
    | none => some { score, peripheral := m.peripheral, channel := m.channel }
    | some b =>
      if b.score < score then some { score, peripheral := m.peripheral, channel := m.channel } else best
  else best

def require (ok : Bool) (message : String) : Except String Unit :=
  if ok then .ok () else .error message

def checkSelected (hasAdc3 : Bool) (p : Peripheral) (ch : Channel) (r : Resolution) : Except String Unit := do
  require (internalChannelAllowed hasAdc3 p ch) "ADC: internal channel must use dedicated ADC"
  require (resolutionSupported p r) "ADC: resolution not supported by selected ADC"

def resolveMapping (hasAdc3 : Bool) (e : Entry) : Except String (Peripheral × Channel) :=
  if e.peripheral ≠ .auto ∧ e.channel ≠ .auto then do
    checkSelected hasAdc3 e.peripheral e.channel e.resolution
    return (e.peripheral, e.channel)
  else if e.channel ≠ .auto ∧ isInternalChannel e.channel then do
    let p := if e.peripheral = .auto then dedicated hasAdc3 else e.peripheral
    checkSelected hasAdc3 p e.channel e.resolution
    return (p, e.channel)
  else
    match pinMap.foldl (consider e) none with
    | none => .error "ADC: no valid ADC mapping for pin/resolution"
    | some best => .ok (best.peripheral, best.channel)

/-- `inscribe`, but for the pin. -/
def inscribe (hasAdc3 : Bool) (e : Entry) : Except String Entry := do
  let resolved ← resolveMapping hasAdc3 e
  return { e with peripheral := resolved.1, channel := resolved.2 }

/-! ## Build -/

/-- `periph_resolution`, `periph_prescaler` and `periph_rate` where `periph_seen` is true, and
`periph_counts`. -/
structure Seen where
  settings : Fin 3 → Option (Resolution × ClockPrescaler × BitVec 32) := fun _ => none
  counts : Fin 3 → Nat := fun _ => 0

def checkSettings (e : Entry) : Option (Resolution × ClockPrescaler × BitVec 32) → Except String Unit
  | none => .ok ()
  | some (resolution, prescaler, rate) => do
    require (resolution = e.resolution) "ADC: resolution mismatch on same peripheral"
    require (prescaler = e.prescaler) "ADC: prescaler mismatch on same peripheral"
    require (rate = e.sampleRateHz) "ADC: sample rate mismatch on same peripheral"

section

variable (hasAdc3 : Bool) (number : Numbers)

/-- The loop over the entries before. -/
def checkPrevious (e : Entry) (mapping : Peripheral × Channel) : List Entry → Except String Unit
  | [] => .ok ()
  | prev :: rest => do
    require (prev.gpioIdx ≠ e.gpioIdx) "ADC: GPIO already used"
    let prevMapping ← resolveMapping hasAdc3 prev
    require (prevMapping ≠ mapping) "ADC: duplicate channel on same peripheral"
    checkPrevious e mapping rest

def buildEntry (previous : List Entry) (seen : Seen) (e : Entry) : Except String (Config × Seen) := do
  let mapping ← resolveMapping hasAdc3 e
  checkSelected hasAdc3 mapping.1 mapping.2 e.resolution
  require (e.sampleRateHz = 0) "ADC: sample_rate_hz is not supported in DMA mode"
  let pidx := peripheralIndex mapping.1
  checkSettings e (seen.settings pidx)
  let count := seen.counts pidx + 1
  require (count ≤ maxChannelsPerPeripheral) "ADC: too many channels on same peripheral"
  checkPrevious hasAdc3 e mapping previous
  let request ← dmaRequest number mapping.1
  let settings := (seen.settings pidx).getD (e.resolution, e.prescaler, e.sampleRateHz)
  let cfg : Config :=
    { gpioIdx := e.gpioIdx, peripheral := mapping.1, channel := mapping.2, resolution := e.resolution,
      sampleTime := e.sampleTime, prescaler := e.prescaler, sampleRateHz := e.sampleRateHz, dmaRequest := request }
  return (cfg,
    { settings := Function.update seen.settings pidx (some settings)
      counts := Function.update seen.counts pidx count })

def buildFrom (previous : List Entry) (seen : Seen) : List Entry → Except String (List Config)
  | [] => .ok []
  | e :: rest => do
    let (cfg, seen) ← buildEntry hasAdc3 number previous seen e
    let cfgs ← buildFrom (previous ++ [e]) seen rest
    return cfg :: cfgs

def build (entries : List Entry) : Except String (List Config) := do
  require (entries.length ≤ maxInstances) "ADCDomain: too many instances"
  buildFrom hasAdc3 number [] {} entries

end

/-! ## What is accepted -/

section Mapping

variable {hasAdc3 : Bool} {e e' : Entry} {mapping : Peripheral × Channel}

theorem require_ok {ok : Bool} {message : String} (h : require ok message = .ok ()) : ok = true := by
  cases ok with
  | false => cases h
  | true => rfl

theorem dedicated_ne_auto (hasAdc3 : Bool) : dedicated hasAdc3 ≠ .auto := by
  cases hasAdc3 <;> decide

theorem consider_fits {m : PinMapping} {best : Option Best} {b : Best} (hfits : e.fits m)
    (h : consider e best m = some b) : best = some b ∨ m.peripheral = b.peripheral ∧ m.channel = b.channel := by
  rw [consider, if_pos hfits] at h
  cases best with
  | none =>
    obtain rfl := Option.some.inj h
    exact .inr ⟨rfl, rfl⟩
  | some b' =>
    dsimp only at h
    split at h
    · obtain rfl := Option.some.inj h
      exact .inr ⟨rfl, rfl⟩
    · exact .inl h

/-- A best mapping is one of the map that fits. -/
theorem foldl_consider (e : Entry) (ms : List PinMapping) (best : Option Best) {b : Best}
    (h : ms.foldl (consider e) best = some b) :
    best = some b ∨ ∃ m ∈ ms, e.fits m ∧ m.peripheral = b.peripheral ∧ m.channel = b.channel := by
  induction ms generalizing best with
  | nil => exact .inl h
  | cons m ms ih =>
    rcases ih _ h with hbest | ⟨m', hmem, hfits⟩
    · by_cases hfits : e.fits m
      · rcases consider_fits hfits hbest with hbest | hbest
        · exact .inl hbest
        · exact .inr ⟨m, List.mem_cons_self, hfits, hbest⟩
      · rw [consider, if_neg hfits] at hbest
        exact .inl hbest
    · exact .inr ⟨m', List.mem_cons_of_mem m hmem, hfits⟩

/-- The map names a peripheral and an external channel, and an ADC3 has no more than 12 bits. -/
theorem pinMap_resolved : ∀ m ∈ pinMap, m.peripheral ≠ .auto ∧ m.channel ≠ .auto ∧
    isInternalChannel m.channel = false ∧ (m.peripheral = .adc3 → m.maxBits ≤ 12) := by decide

theorem checkSelected_eq {p : Peripheral} {ch : Channel} {r : Resolution}
    (hinternal : internalChannelAllowed hasAdc3 p ch = true) (hresolution : resolutionSupported p r = true) :
    checkSelected hasAdc3 p ch r = .ok () := by
  rw [checkSelected, hinternal, hresolution]
  rfl

/-- A mapping is resolved, and passes the checks of one that is selected. -/
theorem resolveMapping_ok (h : resolveMapping hasAdc3 e = .ok mapping) :
    (mapping.1 ≠ .auto ∧ mapping.2 ≠ .auto) ∧
      checkSelected hasAdc3 mapping.1 mapping.2 e.resolution = .ok () := by
  rw [resolveMapping] at h
  split at h
  · next hexplicit =>
    obtain ⟨_, hchecked, hmapping⟩ := bind_ok h
    obtain rfl := Except.ok.inj hmapping
    exact ⟨hexplicit, hchecked⟩
  · split at h
    · next hinternal =>
      obtain ⟨_, hchecked, hmapping⟩ := bind_ok h
      obtain rfl := Except.ok.inj hmapping
      refine ⟨⟨?_, hinternal.1⟩, hchecked⟩
      dsimp only
      split
      · exact dedicated_ne_auto hasAdc3
      · assumption
    · split at h
      · cases h
      · next best hbest =>
        obtain rfl := Except.ok.inj h
        rcases foldl_consider e pinMap none hbest with hnone | ⟨m, hmem, hfits, hperipheral, hchannel⟩
        · cases hnone
        · obtain ⟨hp, hch, hexternal, hbits⟩ := pinMap_resolved m hmem
          rw [hperipheral] at hp hbits
          rw [hchannel] at hch hexternal
          refine ⟨⟨hp, hch⟩, checkSelected_eq ?_ ?_⟩
          · rw [internalChannelAllowed, hexternal]
            rfl
          · rw [resolutionSupported]
            split
            · next hadc3 => exact decide_eq_true (hfits.2.2.2.trans (hbits hadc3))
            · rfl

/-- What is inscribed is resolved as it was. -/
theorem resolveMapping_inscribe (h : inscribe hasAdc3 e = .ok e') :
    resolveMapping hasAdc3 e = .ok (e'.peripheral, e'.channel) ∧
      resolveMapping hasAdc3 e' = .ok (e'.peripheral, e'.channel) := by
  obtain ⟨mapping, hmapping, he⟩ := bind_ok h
  obtain rfl := Except.ok.inj he
  obtain ⟨hresolved, hchecked⟩ := resolveMapping_ok hmapping
  refine ⟨hmapping, ?_⟩
  rw [resolveMapping, if_pos hresolved]
  change (checkSelected hasAdc3 mapping.1 mapping.2 e.resolution >>= fun _ => _) = _
  rw [hchecked]
  rfl

end Mapping

/-- The key that the loops count by. -/
def index (cfg : Config) : Fin 3 := peripheralIndex cfg.peripheral

/-- What `build` accepts. -/
structure Accepted (cfgs : List Config) : Prop where
  resolved : ∀ cfg ∈ cfgs, cfg.peripheral ≠ .auto ∧ cfg.channel ≠ .auto
  pins : cfgs.Pairwise fun a b => a.gpioIdx ≠ b.gpioIdx
  distinct : cfgs.Pairwise fun a b => (a.peripheral, a.channel) ≠ (b.peripheral, b.channel)
  few : ∀ k, (group index cfgs k).length ≤ maxChannelsPerPeripheral

section Build

variable {hasAdc3 : Bool} {number : Numbers} {e : Entry} {previous rest entries : List Entry} {seen seen' : Seen}
  {cfg : Config} {cfgs before : List Config}

/-- A configuration is that of an entry. -/
structure Of (hasAdc3 : Bool) (number : Numbers) (e : Entry) (cfg : Config) : Prop where
  mapping : resolveMapping hasAdc3 e = .ok (cfg.peripheral, cfg.channel)
  request : dmaRequest number cfg.peripheral = .ok cfg.dmaRequest
  kept : cfg.gpioIdx = e.gpioIdx ∧ cfg.resolution = e.resolution ∧ cfg.sampleTime = e.sampleTime ∧
    cfg.prescaler = e.prescaler ∧ cfg.sampleRateHz = e.sampleRateHz

theorem exists_of_mem (h : List.Forall₂ (Of hasAdc3 number) entries cfgs) (hc : cfg ∈ cfgs) :
    ∃ e ∈ entries, Of hasAdc3 number e cfg := by
  induction h with
  | nil => exact absurd hc List.not_mem_nil
  | cons hof _ ih =>
    rcases List.mem_cons.mp hc with rfl | hc
    · exact ⟨_, List.mem_cons_self, hof⟩
    · obtain ⟨e, he, hof'⟩ := ih hc
      exact ⟨e, List.mem_cons_of_mem _ he, hof'⟩

theorem checkPrevious_ok {mapping : Peripheral × Channel} (h : checkPrevious hasAdc3 e mapping previous = .ok ()) :
    ∀ prev ∈ previous, prev.gpioIdx ≠ e.gpioIdx ∧ resolveMapping hasAdc3 prev ≠ .ok mapping := by
  induction previous with
  | nil => exact fun prev hprev => absurd hprev List.not_mem_nil
  | cons prev previous ih =>
    obtain ⟨_, hpin, h⟩ := bind_ok h
    obtain ⟨prevMapping, hprev, h⟩ := bind_ok h
    obtain ⟨_, hne, h⟩ := bind_ok h
    refine List.forall_mem_cons.mpr ⟨⟨of_decide_eq_true (require_ok hpin), ?_⟩, ih h⟩
    rw [hprev]
    exact fun heq => of_decide_eq_true (require_ok hne) (Except.ok.inj heq)

theorem buildEntry_ok (h : buildEntry hasAdc3 number previous seen e = .ok (cfg, seen')) :
    Of hasAdc3 number e cfg ∧
      (∀ prev ∈ previous, prev.gpioIdx ≠ e.gpioIdx ∧
        resolveMapping hasAdc3 prev ≠ .ok (cfg.peripheral, cfg.channel)) ∧
      seen.counts (index cfg) < maxChannelsPerPeripheral ∧
      seen'.counts = Function.update seen.counts (index cfg) (seen.counts (index cfg) + 1) := by
  obtain ⟨mapping, hmapping, h⟩ := bind_ok h
  obtain ⟨_, -, h⟩ := bind_ok h
  obtain ⟨_, -, h⟩ := bind_ok h
  obtain ⟨_, -, h⟩ := bind_ok h
  obtain ⟨_, hcount, h⟩ := bind_ok h
  obtain ⟨_, hprevious, h⟩ := bind_ok h
  obtain ⟨request, hrequest, h⟩ := bind_ok h
  obtain ⟨rfl, rfl⟩ := Prod.mk.inj (Except.ok.inj h)
  exact ⟨⟨hmapping, hrequest, rfl, rfl, rfl, rfl, rfl⟩, checkPrevious_ok hprevious,
    of_decide_eq_true (require_ok hcount), rfl⟩

/-- An entry more. -/
theorem Accepted.snoc (h : Accepted before) (hprevious : List.Forall₂ (Of hasAdc3 number) previous before)
    (hcounts : ∀ k, seen.counts k = (group index before k).length)
    (he : buildEntry hasAdc3 number previous seen e = .ok (cfg, seen')) :
    Accepted (before ++ [cfg]) ∧ ∀ k, seen'.counts k = (group index (before ++ [cfg]) k).length := by
  obtain ⟨hof, hne, hcount, hseen⟩ := buildEntry_ok he
  have hgroup : ∀ k, seen'.counts k = (group index (before ++ [cfg]) k).length := by
    intro k
    rw [hseen, group_append, List.length_append]
    by_cases hk : index cfg = k
    · rw [← hk, Function.update_self, hcounts, group_cons_self]
      rfl
    · rw [Function.update_of_ne (Ne.symm hk), hcounts, group_cons_ne cfg [] hk]
      rfl
  refine ⟨⟨?_, ?_, ?_, fun k => ?_⟩, hgroup⟩
  · intro c hc
    rcases List.mem_append.mp hc with hc | hc
    · exact h.resolved c hc
    · rw [List.mem_singleton.mp hc]
      exact (resolveMapping_ok hof.mapping).1
  · refine List.pairwise_append.mpr ⟨h.pins, List.pairwise_singleton _ _, fun c hc c' hc' => ?_⟩
    rw [List.mem_singleton.mp hc', hof.kept.1]
    obtain ⟨prev, hprev, hof'⟩ := exists_of_mem hprevious hc
    rw [hof'.kept.1]
    exact (hne prev hprev).1
  · refine List.pairwise_append.mpr ⟨h.distinct, List.pairwise_singleton _ _, fun c hc c' hc' heq => ?_⟩
    rw [List.mem_singleton.mp hc'] at heq
    obtain ⟨prev, hprev, hof'⟩ := exists_of_mem hprevious hc
    exact (hne prev hprev).2 (heq ▸ hof'.mapping)
  · rw [← hgroup, hseen]
    by_cases hk : k = index cfg
    · rw [hk, Function.update_self]
      exact hcount
    · rw [Function.update_of_ne hk, hcounts]
      exact h.few k

theorem buildFrom_ok (hbefore : Accepted before) (hprevious : List.Forall₂ (Of hasAdc3 number) previous before)
    (hcounts : ∀ k, seen.counts k = (group index before k).length)
    (h : buildFrom hasAdc3 number previous seen rest = .ok cfgs) :
    Accepted (before ++ cfgs) ∧ List.Forall₂ (Of hasAdc3 number) rest cfgs := by
  induction rest generalizing previous seen before cfgs with
  | nil =>
    obtain rfl := Except.ok.inj h
    rw [List.append_nil]
    exact ⟨hbefore, .nil⟩
  | cons e rest ih =>
    obtain ⟨⟨cfg, seen'⟩, he, h⟩ := bind_ok h
    obtain ⟨cfgs', hrest, h⟩ := bind_ok h
    obtain rfl := Except.ok.inj h
    obtain ⟨haccepted, hcounts'⟩ := hbefore.snoc hprevious hcounts he
    have hof := (buildEntry_ok he).1
    obtain ⟨hall, hforall⟩ := ih haccepted (List.rel_append hprevious (.cons hof .nil)) hcounts' hrest
    rw [List.append_assoc] at hall
    exact ⟨hall, .cons hof hforall⟩

theorem build_ok (h : build hasAdc3 number entries = .ok cfgs) :
    Accepted cfgs ∧ List.Forall₂ (Of hasAdc3 number) entries cfgs ∧ cfgs.length ≤ maxInstances := by
  rw [build] at h
  obtain ⟨_, hfew, h⟩ := bind_ok h
  have hnone : Accepted [] :=
    ⟨fun _ hmem => absurd hmem List.not_mem_nil, .nil, .nil, fun _ => Nat.zero_le _⟩
  obtain ⟨haccepted, hforall⟩ := buildFrom_ok hnone .nil (fun k => rfl) h
  exact ⟨haccepted, hforall, hforall.length_eq ▸ of_decide_eq_true (require_ok hfew)⟩

end Build

/-! ## The domain of the board -/

def Channel.number : Channel → Nat
  | .ch n => n
  | .vrefint => 20
  | .tempsensor => 21
  | .vbat => 22
  | .auto => 23

def Config.toBoard (cfg : Config) : Domains.Adc.Entry where
  gpioIdx := cfg.gpioIdx
  peripheral :=
    match cfg.peripheral with
    | .auto | .adc1 => .adc1
    | .adc2 => .adc2
    | .adc3 => .adc3
  channel := cfg.channel.number

theorem Channel.number_injective : Function.Injective Channel.number := by
  intro a b h
  cases a <;> cases b <;> simp only [Channel.number] at h <;> first | rfl | omega | skip
  exact congrArg Channel.ch (Fin.ext h)

/-- The board tells resolved channels apart as `build` does. -/
theorem toBoard_ne {a b : Config} (ha : a.peripheral ≠ .auto) (hb : b.peripheral ≠ .auto)
    (h : (a.peripheral, a.channel) ≠ (b.peripheral, b.channel)) :
    (a.toBoard.peripheral == b.toBoard.peripheral && a.toBoard.channel == b.toBoard.channel) = false := by
  rw [Bool.and_eq_false_iff, beq_eq_false_iff_ne, beq_eq_false_iff_ne]
  by_cases hchannel : a.channel = b.channel
  · left
    intro hperipheral
    refine h (Prod.ext ?_ hchannel)
    simp only [Config.toBoard] at hperipheral
    cases hp : a.peripheral <;> cases hq : b.peripheral <;> simp_all
  · exact .inr fun hnumber => hchannel (Channel.number_injective hnumber)

/-- The board takes what is built. -/
theorem board_build {hasAdc3 : Bool} {number : Numbers} {entries : List Entry} {cfgs : List Config}
    (h : build hasAdc3 number entries = .ok cfgs) :
    Domains.Adc.build (cfgs.map Config.toBoard) = .ok (Domains.inPlace (cfgs.map Config.toBoard)) := by
  obtain ⟨haccepted, -, -⟩ := build_ok h
  have hpins : (cfgs.map Config.toBoard).Pairwise fun prev e => (prev.gpioIdx == e.gpioIdx) = false :=
    List.pairwise_map.mpr (haccepted.pins.imp fun hne => beq_eq_false_iff_ne.mpr hne)
  have hchannels : (cfgs.map Config.toBoard).Pairwise fun prev e =>
      (prev.peripheral == e.peripheral && prev.channel == e.channel) = false :=
    List.pairwise_map.mpr (haccepted.distinct.imp_of_mem fun ha hb hne =>
      toBoard_ne (haccepted.resolved _ ha).1 (haccepted.resolved _ hb).1 hne)
  rw [Domains.Adc.build, Domains.checkEarlier, if_pos hpins, Domains.checkEarlier, if_pos hchannels]
  rfl

end StLib.Adc.Build
