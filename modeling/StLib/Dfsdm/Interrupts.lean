import StLib.Base.BitSlots
import StLib.Base.EventOrder
import StLib.Base.LowestBit
import StLib.Dfsdm.Samples

/-! # The interrupts of a filter

`handle_irq` with the callbacks that `build` and `Init::init` carry from the entries of a board into
its instances. The registers are read as they are at the entry of the interrupt, and `FLTICR` reads
zero. -/
namespace StLib.Dfsdm.Interrupts

open StLib.Base.RegisterBits StLib.Base.BitSlots StLib.Base.EventOrder StLib.Base.LowestBit
open StLib.Dfsdm.Model (Word)

variable {κ : Type}

inductive Kind
  | conversionComplete
  | overrun
  | shortCircuit
  | clockAbsence
  | watchdog
deriving DecidableEq

/-- The callbacks of a `Config_Filter`, where `none` is null. -/
structure Callbacks (κ : Type) where
  watchdog : Option κ := none
  conversionComplete : Option κ := none
  overrun : Option κ := none
  clockAbsence : Option κ := none
  shortCircuit : Option κ := none

def Callbacks.get (callbacks : Callbacks κ) : Kind → Option κ
  | .conversionComplete => callbacks.conversionComplete
  | .overrun => callbacks.overrun
  | .shortCircuit => callbacks.shortCircuit
  | .clockAbsence => callbacks.clockAbsence
  | .watchdog => callbacks.watchdog

/-- An entry with its callbacks. -/
structure Entry (κ : Type) where
  entry : Model.Entry
  callbacks : Callbacks κ := {}
  agrees : entry.configFilter.conversionCompleteCallback = callbacks.conversionComplete.isSome := by decide

structure Config (κ : Type) where
  config : Model.Config
  callbacks : Callbacks κ

def build (entries : List (Entry κ)) : Option (List (Config κ)) :=
  (Model.build (entries.map Entry.entry)).map fun cfgs =>
    List.zipWith Config.mk cfgs (entries.map Entry.callbacks)

/-! ## `Init::init` -/

structure Instance (κ : Type) where
  sample : Samples.Instance
  watchdogCb : Option κ := none
  shortCircuitCb : Option κ := none
  clockAbsenceCb : Option κ := none
  overrunCb : Option κ := none
  endConversionCb : Option κ := none

def Instance.callback (inst : Instance κ) : Kind → Option κ
  | .conversionComplete => inst.endConversionCb
  | .overrun => inst.overrunCb
  | .shortCircuit => inst.shortCircuitCb
  | .clockAbsence => inst.clockAbsenceCb
  | .watchdog => inst.watchdogCb

/-- There is no assignment to `clock_absence_cb`. -/
def Config.toInstance (cfg : Config κ) : Instance κ where
  sample := Samples.Config.toInstance cfg.config
  overrunCb := cfg.callbacks.overrun
  shortCircuitCb := cfg.callbacks.shortCircuit
  watchdogCb := cfg.callbacks.watchdog
  endConversionCb := cfg.callbacks.conversionComplete

/-- `channel_instances` and `channels_enabled`. -/
structure Board (κ : Type) where
  channelInstances : Fin 8 → Option (Instance κ) := fun _ => none
  channelsEnabled : BitVec 8 := 0

/-- The loop of `init` over the configurations. -/
def init : List (Config κ) → Board κ → Board κ
  | [], b => b
  | cfg :: rest, b =>
    init rest
      { channelInstances := Function.update b.channelInstances cfg.config.channel (some cfg.toInstance)
        channelsEnabled := b.channelsEnabled ||| bit cfg.config.channel }

/-! ## Registers -/

structure FilterRegisters where
  fltisr : Word
  fltrdatar : Word
  fltjdatar : Word
  fltawsr : Word

def jeocf : Word := bit 0

def reocf : Word := bit 1

def jovrf : Word := bit 2

def rovrf : Word := bit 3

def awdf : Word := bit 4

def awdfPos : Nat := 4

/-- In `FLTISR`, and in `FLTICR` the bits that clear them. -/
def ckabf : Slot 32 := { pos := 16, width := 8 }

def scdf : Slot 32 := { pos := 24, width := 8 }

theorem awltf_fits : 0 + 8 ≤ 32 := by decide

/-- In `FLTAWSR`, and in `FLTAWCFR` the bits that clear them. -/
def awltf : Slot 32 := { pos := 0, width := 8, fits := awltf_fits }

def awhtf : Slot 32 := { pos := 8, width := 8 }

/-! ## `handle_irq` -/

inductive Action (κ : Type)
  | call (kind : Kind) (channel : Fin 8) (callback : κ)
  /-- What is written to `FLTICR`. -/
  | clearInterrupts (mask : Word)
  /-- What is written to `FLTAWCFR`. -/
  | clearWatchdogs (mask : Word)

/-- The callback of a channel is called if there is one; there is no channel above 7. -/
def notify (b : Board κ) (kind : Kind) (ch : Nat) : Option (List (Action κ)) :=
  if h : ch < 8 then
    match b.channelInstances ⟨ch, h⟩ with
    | none => some []
    | some inst =>
      match inst.callback kind with
      | none => some []
      | some callback => some [.call kind ⟨ch, h⟩ callback]
  else none

/-- A flag is handled: the callback of one channel, and what clears it. -/
def handleFlag (b : Board κ) (flagged : Prop) [Decidable flagged] (kind : Kind) (ch : Nat)
    (clear : Action κ) : Option (List (Action κ)) :=
  if flagged then (notify b kind ch).map (· ++ [clear]) else some []

def dataChannel (data : Word) : Nat := (data &&& 0x7).toNat

/-- An end of conversion; its flag is cleared by reading the data. -/
def handleEnd (b : Board κ) (flagged : Prop) [Decidable flagged] (data : Word) : Option (List (Action κ)) :=
  if flagged then notify b .conversionComplete (dataChannel data) else some []

def handleEnds (b : Board κ) (r : FilterRegisters) : Option (List (Action κ)) := do
  let regular ← handleEnd b (r.fltisr &&& reocf ≠ 0) r.fltrdatar
  let injected ← handleEnd b (r.fltisr &&& jeocf ≠ 0) r.fltjdatar
  return regular ++ injected

def handleOverruns (b : Board κ) (r : FilterRegisters) : Option (List (Action κ)) := do
  let regular ← handleFlag b (r.fltisr &&& rovrf ≠ 0) .overrun (dataChannel r.fltrdatar) (.clearInterrupts rovrf)
  let injected ← handleFlag b (r.fltisr &&& jovrf ≠ 0) .overrun (dataChannel r.fltjdatar) (.clearInterrupts jovrf)
  return regular ++ injected

/-- The short circuits and the clock absences, by their flags in `FLTISR`. -/
def handleChannels (b : Board κ) (r : FilterRegisters) (flags : Slot 32) (kind : Kind) :
    Option (List (Action κ)) :=
  handleFlag b (r.fltisr &&& (b.channelsEnabled.setWidth 32 <<< flags.pos) ≠ 0) kind
    ((r.fltisr &&& flags.mask) >>> flags.pos).ctz.toNat (.clearInterrupts flags.mask)

/-- The thresholds of the watchdog; their flags in `FLTAWSR` are not shifted. -/
def handleThreshold (b : Board κ) (r : FilterRegisters) (flags : Slot 32) : Option (List (Action κ)) :=
  handleFlag b (r.fltawsr &&& flags.mask ≠ 0) .watchdog (r.fltawsr &&& flags.mask).ctz.toNat
    (.clearWatchdogs flags.mask)

/-- The mask of `AWDF` is shifted to where it is a second time. -/
def handleWatchdog (b : Board κ) (r : FilterRegisters) : Option (List (Action κ)) :=
  if r.fltisr &&& (awdf <<< awdfPos) ≠ 0 then do
    let high ← handleThreshold b r awhtf
    let low ← handleThreshold b r awltf
    return high ++ low
  else some []

/-- The data of the ends of conversion are stored. -/
def storeSamples (b : Board κ) (filter : Fin 4) (r : FilterRegisters) (s : Samples.State) : Samples.State :=
  Samples.handleIrq (fun c => (b.channelInstances c).map Instance.sample)
    { filter
      regular := if r.fltisr &&& reocf ≠ 0 then some r.fltrdatar else none
      injected := if r.fltisr &&& jeocf ≠ 0 then some r.fltjdatar else none } s

/-- What the interrupt does, in order, and the samples; nothing where a channel is out of range. -/
def handleIrq (b : Board κ) (filter : Fin 4) (r : FilterRegisters) (s : Samples.State) :
    Option (Samples.State × List (Action κ)) := do
  let ends ← handleEnds b r
  let overruns ← handleOverruns b r
  let shortCircuits ← handleChannels b r scdf .shortCircuit
  let clockAbsences ← handleChannels b r ckabf .clockAbsence
  let watchdogs ← handleWatchdog b r
  return (storeSamples b filter r s, ends ++ overruns ++ shortCircuits ++ clockAbsences ++ watchdogs)

/-! ## What is claimed -/

inductive Flag
  | regularOverrun
  | injectedOverrun
  | shortCircuit (c : Fin 8)
  | clockAbsence (c : Fin 8)
  | highThreshold (c : Fin 8)
  | lowThreshold (c : Fin 8)

namespace Flag

def kind : Flag → Kind
  | regularOverrun | injectedOverrun => .overrun
  | shortCircuit _ => .shortCircuit
  | clockAbsence _ => .clockAbsence
  | highThreshold _ | lowThreshold _ => .watchdog

def isSet (r : FilterRegisters) : Flag → Prop
  | regularOverrun => r.fltisr.getLsbD 3 = true
  | injectedOverrun => r.fltisr.getLsbD 2 = true
  | shortCircuit c => r.fltisr.getLsbD (scdf.pos + c) = true
  | clockAbsence c => r.fltisr.getLsbD (ckabf.pos + c) = true
  | highThreshold c => r.fltawsr.getLsbD (awhtf.pos + c) = true
  | lowThreshold c => r.fltawsr.getLsbD (awltf.pos + c) = true

/-- The channel of a flag; that of an overrun is in the data register. -/
def channel (r : FilterRegisters) : Flag → Fin 8
  | regularOverrun => Samples.dataChannel r.fltrdatar
  | injectedOverrun => Samples.dataChannel r.fltjdatar
  | shortCircuit c | clockAbsence c | highThreshold c | lowThreshold c => c

/-- An action that clears the flag. -/
def ClearedBy : Flag → Action κ → Prop
  | regularOverrun, .clearInterrupts mask => mask.getLsbD 3 = true
  | injectedOverrun, .clearInterrupts mask => mask.getLsbD 2 = true
  | shortCircuit c, .clearInterrupts mask => mask.getLsbD (scdf.pos + c) = true
  | clockAbsence c, .clearInterrupts mask => mask.getLsbD (ckabf.pos + c) = true
  | highThreshold c, .clearWatchdogs mask => mask.getLsbD (awhtf.pos + c) = true
  | lowThreshold c, .clearWatchdogs mask => mask.getLsbD (awltf.pos + c) = true
  | _, _ => False

end Flag

/-- The callback that is configured for a channel; there is none for a channel that is not in use. -/
def configured (es : List (Entry κ)) (kind : Kind) (c : Fin 8) : Option κ :=
  (es.find? fun e => e.entry.channel = c).bind fun e => e.callbacks.get kind

structure Serves (es : List (Entry κ)) (r : FilterRegisters) (actions : List (Action κ)) : Prop where
  invoked : ∀ (flag : Flag) callback, flag.isSet r → configured es flag.kind (flag.channel r) = some callback →
    Before (.call flag.kind (flag.channel r) callback) flag.ClearedBy actions
  cleared : ∀ (flag : Flag) callback, flag.isSet r → configured es flag.kind (flag.channel r) = some callback →
    ∀ before action after, actions = before ++ action :: after → flag.ClearedBy action →
      .call flag.kind (flag.channel r) callback ∈ before

/-- The interrupt ends, and serves its flags. -/
def Right (es : List (Entry κ)) (r : FilterRegisters) (done : Option (Samples.State × List (Action κ))) : Prop :=
  ∃ s actions, done = some (s, actions) ∧ Serves es r actions

/-- No channel with a callback has a short circuit while a lower channel has one, or loses its clock, and no
channel with a callback has a threshold passed; but where the reserved bit 8 of `FLTISR` is set, the lowest may
have its lower one passed. -/
structure Meets (es : List (Entry κ)) (r : FilterRegisters) : Prop where
  shortCircuit : ∀ c, (Flag.shortCircuit c).isSet r → configured es .shortCircuit c ≠ none →
    ∀ d < c, ¬ (Flag.shortCircuit d).isSet r
  clockAbsence : ∀ c, (Flag.clockAbsence c).isSet r → configured es .clockAbsence c = none
  watchdog : r.fltisr.getLsbD 8 = false →
    ∀ c, (Flag.highThreshold c).isSet r ∨ (Flag.lowThreshold c).isSet r → configured es .watchdog c = none
  reserved : r.fltisr.getLsbD 8 = true → (∀ c, ¬ (Flag.highThreshold c).isSet r) ∧
    ∀ c, (Flag.lowThreshold c).isSet r → configured es .watchdog c ≠ none → ∀ d < c, ¬ (Flag.lowThreshold d).isSet r

/-! ## Instances -/

variable {es : List (Entry κ)} {cfgs : List (Config κ)} {b : Board κ} {r : FilterRegisters} {kind : Kind}
  {c : Fin 8} {f : κ}

theorem build_pairs (h : build es = some cfgs) :
    (cfgs.map fun cfg => (cfg.config.channel, cfg.callbacks)) = es.map fun e => (e.entry.channel, e.callbacks) := by
  obtain ⟨cs, hcs, rfl⟩ := Option.map_eq_some_iff.mp h
  have hchannels : cs.map Model.Config.channel = (es.map Entry.entry).map Model.Entry.channel :=
    Build.map_build hcs _ _ fun e c hd => hd.channel
  rw [List.map_zipWith]
  change List.zipWith (fun c callbacks => (Model.Config.channel c, id callbacks)) cs _ = _
  rw [← List.zipWith_map (f := Prod.mk), hchannels, List.map_id, List.map_map]
  exact List.zip_map' ..

theorem nodup_channels (h : build es = some cfgs) : (cfgs.map fun cfg => cfg.config.channel).Nodup := by
  obtain ⟨cs, hcs, hcfgs⟩ := Option.map_eq_some_iff.mp h
  have hnodup := (Build.of_build hcs).1.1.nodup
  have hpairs := congrArg (List.map Prod.fst) (build_pairs h)
  rw [List.map_map, List.map_map] at hpairs
  rw [List.map_map] at hnodup
  exact hpairs ▸ hnodup

theorem init_instances : ∀ (cfgs : List (Config κ)) (b : Board κ) (c : Fin 8),
    (cfgs.map fun cfg => cfg.config.channel).Nodup → (init cfgs b).channelInstances c =
      ((cfgs.find? fun cfg => cfg.config.channel = c).map Config.toInstance).or (b.channelInstances c)
  | [], _, _, _ => rfl
  | cfg :: rest, b, c, hnodup => by
    obtain ⟨hfresh, hrest⟩ := List.nodup_cons.mp hnodup
    rw [init, init_instances rest _ c hrest]
    by_cases hc : cfg.config.channel = c
    · have hnone : (rest.find? fun x => x.config.channel = c) = none := by
        refine List.find?_eq_none.mpr fun x hx hxc => hfresh (List.mem_map.mpr ⟨x, hx, ?_⟩)
        exact (of_decide_eq_true hxc).trans hc.symm
      rw [hnone, List.find?_cons_of_pos (by simpa using hc)]
      change Function.update b.channelInstances _ _ c = _
      rw [← hc, Function.update_self]
      rfl
    · rw [List.find?_cons_of_neg (by simpa using hc)]
      refine congrArg (Option.or _) ?_
      exact Function.update_of_ne (Ne.symm hc) ..

theorem init_enabled : ∀ (cfgs : List (Config κ)) (b : Board κ) (c : Fin 8),
    (init cfgs b).channelsEnabled.getLsbD c = true ↔
      b.channelsEnabled.getLsbD c = true ∨ ∃ cfg ∈ cfgs, cfg.config.channel = c
  | [], _, _ => by simp [init]
  | cfg :: rest, b, c => by
    rw [init, init_enabled rest, BitVec.getLsbD_or, getLsbD_bit cfg.config.channel.isLt, Bool.or_eq_true,
      decide_eq_true_iff, List.exists_mem_cons_iff, or_assoc, ← Fin.ext_iff, @eq_comm _ c]

/-- The callback of the instance of a channel. -/
def callbackOf (b : Board κ) (kind : Kind) (c : Fin 8) : Option κ :=
  (b.channelInstances c).bind fun inst => inst.callback kind

theorem callbackOf_toInstance (cfg : Config κ) (kind : Kind) :
    cfg.toInstance.callback kind = if kind = .clockAbsence then none else cfg.callbacks.get kind := by
  cases kind <;> rfl

/-- What is found for a channel among the entries is found among the configurations. -/
theorem find_callbacks (h : build es = some cfgs) (c : Fin 8) :
    (cfgs.find? fun cfg => cfg.config.channel = c).map Config.callbacks =
      (es.find? fun e => e.entry.channel = c).map Entry.callbacks := by
  have hfound := congrArg (fun l => (l.find? fun x => decide (x.1 = c)).map Prod.snd) (build_pairs h)
  simp only [List.find?_map, Option.map_map] at hfound
  exact hfound

/-- The instances have the callbacks that are configured, but those of the clock absences. -/
theorem callbackOf_init (h : build es = some cfgs) (kind : Kind) (c : Fin 8) :
    callbackOf (init cfgs {}) kind c = if kind = .clockAbsence then none else configured es kind c := by
  have hfound := congrArg (Option.bind · fun callbacks => callbacks.get kind) (find_callbacks h c)
  simp only [Option.bind_map] at hfound
  unfold callbackOf configured
  rw [init_instances cfgs _ c (nodup_channels h), Option.or_none, Option.bind_map]
  simp only [Function.comp_def, callbackOf_toInstance]
  split
  · exact Option.bind_fun_none _
  · exact hfound

theorem enabled_of_configured (h : build es = some cfgs) (hf : configured es kind c = some f) :
    (init cfgs {}).channelsEnabled.getLsbD c = true := by
  obtain ⟨e, he, -⟩ := Option.bind_eq_some_iff.mp hf
  refine (init_enabled cfgs {} c).mpr (.inr ?_)
  have hmem := List.mem_map_of_mem (f := fun e : Entry κ => (e.entry.channel, e.callbacks)) (List.mem_of_find?_eq_some he)
  rw [← build_pairs h] at hmem
  obtain ⟨cfg, hcfg, heq⟩ := List.mem_map.mp hmem
  have hchannel := List.find?_some he
  exact ⟨cfg, hcfg, (congrArg Prod.fst heq).trans (of_decide_eq_true hchannel)⟩

/-! ## What is done for one flag -/

/-- The call of the callback of a channel, if there is one. -/
def called (b : Board κ) (kind : Kind) (c : Fin 8) : List (Action κ) :=
  ((callbackOf b kind c).map (Action.call kind c)).toList

theorem notify_eq (b : Board κ) (kind : Kind) {ch : Nat} (h : ch < 8) :
    notify b kind ch = some (called b kind ⟨ch, h⟩) := by
  unfold notify called callbackOf
  rw [dif_pos h]
  cases b.channelInstances ⟨ch, h⟩ with
  | none => rfl
  | some inst => cases hcallback : inst.callback kind <;> simp [hcallback]

theorem mem_called {a : Action κ} : a ∈ called b kind c ↔ ∃ f, callbackOf b kind c = some f ∧ .call kind c f = a := by
  rw [called, Option.mem_toList, Option.map_eq_some_iff]

theorem called_of_some (h : callbackOf b kind c = some f) : called b kind c = [.call kind c f] := by
  rw [called, h]
  rfl

theorem not_cleared_call (flag : Flag) : ¬ flag.ClearedBy (.call kind c f) := by cases flag <;> exact id

theorem quiet_called (flag : Flag) : ∀ a ∈ called b kind c, ¬ flag.ClearedBy a := by
  intro a ha
  obtain ⟨f, -, rfl⟩ := mem_called.mp ha
  exact not_cleared_call flag

/-- The actions for a flag are calls for one channel, and what clears the flag. -/
inductive Handled (b : Board κ) (kind : Kind) (clear : Action κ) : List (Action κ) → Prop
  | absent : Handled b kind clear []
  | flagged (c : Fin 8) : Handled b kind clear (called b kind c ++ [clear])

theorem handleFlag_eq {flagged : Prop} [Decidable flagged] {ch : Nat} (h : flagged → ch < 8) (b : Board κ)
    (kind : Kind) (clear : Action κ) : handleFlag b flagged kind ch clear =
      some (if hflagged : flagged then called b kind ⟨ch, h hflagged⟩ ++ [clear] else []) := by
  unfold handleFlag
  split
  · next hflagged => rw [notify_eq b kind (h hflagged), Option.map_some]
  · rfl

theorem handled_dite {flagged : Prop} [Decidable flagged] {clear : Action κ} {channel : flagged → Fin 8} :
    Handled b kind clear (if hflagged : flagged then called b kind (channel hflagged) ++ [clear] else []) := by
  split
  · exact .flagged _
  · exact .absent

theorem Handled.quiet {clear : Action κ} {l : List (Action κ)} (h : Handled b kind clear l) (flag : Flag)
    (hclear : ¬ flag.ClearedBy clear) : ∀ a ∈ l, ¬ flag.ClearedBy a := by
  cases h with
  | absent => exact fun a ha => absurd ha List.not_mem_nil
  | flagged d =>
    intro a ha
    rcases List.mem_append.mp ha with hcall | hlast
    · exact quiet_called flag a hcall
    · obtain rfl := List.mem_singleton.mp hlast
      exact hclear

theorem Handled.call {clear : Action κ} {l : List (Action κ)} (h : Handled b kind clear l)
    (hclear : ∀ kind c f, clear ≠ .call kind c f) {kind' : Kind} (hcall : .call kind' c f ∈ l) :
    kind' = kind := by
  cases h with
  | absent => exact absurd hcall List.not_mem_nil
  | flagged d =>
    rcases List.mem_append.mp hcall with hmem | hlast
    · obtain ⟨f', -, heq⟩ := mem_called.mp hmem
      cases heq
      rfl
    · exact absurd (List.mem_singleton.mp hlast).symm (hclear _ _ _)

/-- A callback is called before its flag is cleared. -/
theorem before_called (h : callbackOf b kind c = some f) (flag : Flag) (clear : Action κ) :
    Before (.call kind c f) flag.ClearedBy (called b kind c ++ [clear]) := by
  rw [called_of_some h]
  exact before_head ..

/-! ## Flags of eight channels -/

/-- The lowest channel with its flag in a slot. -/
def Lowest (flags : Slot 32) (x : Word) (c : Fin 8) : Prop :=
  x.getLsbD (flags.pos + c) = true ∧ ∀ d < c, ¬ x.getLsbD (flags.pos + d) = true

theorem Lowest.unique {flags : Slot 32} {x : Word} {c d : Fin 8} (hc : Lowest flags x c) (hd : Lowest flags x d) :
    c = d := by
  rcases lt_trichotomy c d with hlt | heq | hgt
  · exact absurd hc.1 (hd.2 c hlt)
  · exact heq
  · exact absurd hd.1 (hc.2 d hgt)

/-- The actions for the flags in a slot, of which that of the lowest channel counts. -/
inductive LowestHandled (b : Board κ) (kind : Kind) (clear : Action κ) (flags : Slot 32) (x : Word)
    (asked : Fin 8 → Prop) : List (Action κ) → Prop
  | absent (h : ∀ c, asked c → ¬ x.getLsbD (flags.pos + c) = true) : LowestHandled b kind clear flags x asked []
  | lowest (c : Fin 8) (h : Lowest flags x c) :
    LowestHandled b kind clear flags x asked (called b kind c ++ [clear])

section LowestHandled

variable {clear : Action κ} {flags : Slot 32} {x : Word} {asked : Fin 8 → Prop} {l : List (Action κ)}

theorem LowestHandled.handled (h : LowestHandled b kind clear flags x asked l) : Handled b kind clear l := by
  cases h with
  | absent => exact .absent
  | lowest d => exact .flagged d

theorem LowestHandled.call (h : LowestHandled b kind clear flags x asked l)
    (hclear : ∀ kind c f, clear ≠ .call kind c f) {kind' : Kind} (hcall : .call kind' c f ∈ l) :
    kind' = kind ∧ callbackOf b kind c = some f ∧ Lowest flags x c := by
  cases h with
  | absent => exact absurd hcall List.not_mem_nil
  | lowest d hlowest =>
    rcases List.mem_append.mp hcall with hmem | hlast
    · obtain ⟨f', hf, heq⟩ := mem_called.mp hmem
      cases heq
      exact ⟨rfl, hf, hlowest⟩
    · exact absurd (List.mem_singleton.mp hlast).symm (hclear _ _ _)

/-- The lowest channel that is asked for is served. -/
theorem LowestHandled.served (h : LowestHandled b kind clear flags x asked l) (hasked : asked c)
    (hc : Lowest flags x c) (hf : callbackOf b kind c = some f) (flag : Flag) :
    Before (.call kind c f) flag.ClearedBy l := by
  cases h with
  | absent habsent => exact absurd hc.1 (habsent c hasked)
  | lowest d hd =>
    rw [hd.unique hc]
    exact before_called hf flag clear

end LowestHandled

/-- The lowest bit of a word that has the flags of a slot, shifted down. -/
theorem lowest_of_bits {flags : Slot 32} {x y : Word} (hlow : ∀ k < 8, y.getLsbD k = x.getLsbD (flags.pos + k))
    (hhigh : ∀ k, 8 ≤ k → y.getLsbD k = false) (hy : y ≠ 0) :
    ∃ hlt : y.ctz.toNat < 8, Lowest flags x ⟨y.ctz.toNat, hlt⟩ := by
  have hset := BitVec.getLsbD_true_ctz_of_ne_zero hy
  have hlt : y.ctz.toNat < 8 := by
    by_contra hge
    rw [hhigh _ (Nat.not_lt.mp hge)] at hset
    cases hset
  refine ⟨hlt, (hlow _ hlt).symm.trans hset, fun d hd => ?_⟩
  rw [← hlow d d.isLt, BitVec.getLsbD_false_of_lt_ctz hd]
  exact Bool.false_ne_true

/-- Some channel has its flag and is asked for. -/
theorem and_channels_ne_zero_iff {flags : Slot 32} (hwidth : flags.width = 8) (x : Word) (channels : BitVec 8) :
    x &&& (channels.setWidth 32 <<< flags.pos) ≠ 0 ↔
      ∃ c : Fin 8, channels.getLsbD c = true ∧ x.getLsbD (flags.pos + c) = true := by
  have hsmall : (channels.setWidth 32).toNat < 2 ^ flags.width := by
    rw [hwidth, BitVec.toNat_setWidth_of_le (by decide)]
    exact channels.isLt
  have hbit (c : Fin 8) : (channels.setWidth 32 <<< flags.pos).getLsbD (flags.pos + c) = channels.getLsbD c := by
    have hlt : c.val < flags.width := by
      rw [hwidth]
      exact c.isLt
    rw [Slot.getLsbD_shiftLeft hsmall, decide_eq_true (flags.covers_add hlt), Nat.add_sub_cancel_left,
      BitVec.getLsbD_setWidth, decide_eq_true (Nat.lt_trans c.isLt (by decide)), Bool.true_and, Bool.true_and]
  rw [Ne, and_mask_eq_zero_iff]
  constructor
  · intro h
    obtain ⟨k, hk⟩ := not_forall.mp h
    obtain ⟨hmask, hx⟩ := Classical.not_imp.mp hk
    have hcovers : flags.Covers k := by
      rw [Slot.getLsbD_shiftLeft hsmall, Bool.and_eq_true] at hmask
      exact of_decide_eq_true hmask.1
    obtain ⟨n, rfl⟩ := Nat.exists_eq_add_of_le hcovers.1
    have hn : n < 8 := hwidth ▸ Nat.lt_of_add_lt_add_left hcovers.2
    exact ⟨⟨n, hn⟩, (hbit ⟨n, hn⟩).symm.trans hmask, eq_true_of_ne_false hx⟩
  · intro ⟨c, hc, hx⟩ h
    rw [h _ ((hbit c).trans hc)] at hx
    cases hx

/-- The channels of a slot of `FLTISR`. -/
theorem handleChannels_spec (flags : Slot 32) (hwidth : flags.width = 8) (b : Board κ) (r : FilterRegisters)
    (kind : Kind) : ∃ l, handleChannels b r flags kind = some l ∧
      LowestHandled b kind (.clearInterrupts flags.mask) flags r.fltisr
        (fun c => b.channelsEnabled.getLsbD c = true) l := by
  have hiff := and_channels_ne_zero_iff hwidth r.fltisr b.channelsEnabled
  have hlow : ∀ k < 8, ((r.fltisr &&& flags.mask) >>> flags.pos).getLsbD k = r.fltisr.getLsbD (flags.pos + k) := by
    intro k hk
    have hlt : k < flags.width := hwidth ▸ hk
    rw [Slot.and_mask_ushiftRight, BitVec.getLsbD_setWidth, Slot.getLsbD_read _ _ hlt,
      decide_eq_true (Nat.lt_trans hk (by decide)), Bool.true_and]
  have hhigh : ∀ k, 8 ≤ k → ((r.fltisr &&& flags.mask) >>> flags.pos).getLsbD k = false := by
    intro k hk
    rw [Slot.and_mask_ushiftRight, BitVec.getLsbD_setWidth, BitVec.getLsbD_of_ge _ _ (hwidth ▸ hk), Bool.and_false]
  by_cases hflagged : r.fltisr &&& (b.channelsEnabled.setWidth 32 <<< flags.pos) ≠ 0
  · obtain ⟨c, -, hc⟩ := hiff.mp hflagged
    have hy : (r.fltisr &&& flags.mask) >>> flags.pos ≠ 0 := ne_zero_of_getLsbD ((hlow c c.isLt).trans hc)
    obtain ⟨hlt, hlowest⟩ := lowest_of_bits hlow hhigh hy
    refine ⟨_, handleFlag_eq (fun _ => hlt) b kind _, ?_⟩
    rw [dif_pos hflagged]
    exact .lowest _ hlowest
  · exact ⟨[], if_neg hflagged, .absent fun c hc hx => hflagged (hiff.mpr ⟨c, hc, hx⟩)⟩

/-- The lower thresholds, whose flags are where they are looked for. -/
theorem lowThreshold_spec (b : Board κ) (r : FilterRegisters) : ∃ l, handleThreshold b r awltf = some l ∧
    LowestHandled b .watchdog (.clearWatchdogs awltf.mask) awltf r.fltawsr (fun _ => True) l := by
  have hbit (k : Nat) : (r.fltawsr &&& awltf.mask).getLsbD k = (r.fltawsr.getLsbD (awltf.pos + k) && decide (k < 8)) := by
    rw [BitVec.getLsbD_and, Slot.getLsbD_mask]
    simp [Slot.Covers, awltf]
  have hlow : ∀ k < 8, (r.fltawsr &&& awltf.mask).getLsbD k = r.fltawsr.getLsbD (awltf.pos + k) := by
    intro k hk
    rw [hbit, decide_eq_true hk, Bool.and_true]
  have hhigh : ∀ k, 8 ≤ k → (r.fltawsr &&& awltf.mask).getLsbD k = false := by
    intro k hk
    rw [hbit, decide_eq_false (Nat.not_lt.mpr hk), Bool.and_false]
  by_cases hflagged : r.fltawsr &&& awltf.mask ≠ 0
  · obtain ⟨hlt, hlowest⟩ := lowest_of_bits hlow hhigh hflagged
    refine ⟨_, handleFlag_eq (fun _ => hlt) b .watchdog _, ?_⟩
    rw [dif_pos hflagged]
    exact .lowest _ hlowest
  · refine ⟨[], if_neg hflagged, .absent fun c _ hc => hflagged (ne_zero_of_getLsbD (k := c) ?_)⟩
    rw [hlow c c.isLt, hc]

/-- The channel of a passed upper threshold is looked for above the channels. -/
theorem highThreshold_spec (b : Board κ) (r : FilterRegisters) :
    (handleThreshold b r awhtf = some [] ∧ ∀ c, ¬ (Flag.highThreshold c).isSet r) ∨
      (handleThreshold b r awhtf = none ∧ ∃ c, (Flag.highThreshold c).isSet r) := by
  have hbit (k : Nat) : (r.fltawsr &&& awhtf.mask).getLsbD k = (r.fltawsr.getLsbD k && decide (awhtf.Covers k)) := by
    rw [BitVec.getLsbD_and, Slot.getLsbD_mask]
  by_cases hflagged : r.fltawsr &&& awhtf.mask ≠ 0
  · have hset := BitVec.getLsbD_true_ctz_of_ne_zero hflagged
    rw [hbit, Bool.and_eq_true, decide_eq_true_iff] at hset
    obtain ⟨hx, hfrom, hto⟩ := hset
    have habove : ¬ (r.fltawsr &&& awhtf.mask).ctz.toNat < 8 := Nat.not_lt.mpr hfrom
    have hnone : handleThreshold b r awhtf = none := by
      unfold handleThreshold handleFlag notify
      rw [if_pos hflagged, dif_neg habove]
      rfl
    obtain ⟨n, hn⟩ := Nat.exists_eq_add_of_le hfrom
    rw [hn] at hx hto
    exact .inr ⟨hnone, ⟨n, Nat.lt_of_add_lt_add_left hto⟩, hx⟩
  · refine .inl ⟨if_neg hflagged, fun c hc => hflagged (ne_zero_of_getLsbD (k := 8 + c) ?_)⟩
    rw [hbit, Bool.and_eq_true]
    exact ⟨hc, decide_eq_true (awhtf.covers_add c.isLt)⟩

/-! ## The parts of the interrupt -/

theorem dataChannel_lt (data : Word) : dataChannel data < 8 := by
  rw [dataChannel, BitVec.toNat_and]
  exact Nat.lt_of_le_of_lt Nat.and_le_right (by decide : (7#32).toNat < 8)

theorem dataChannel_eq (data : Word) : (⟨dataChannel data, dataChannel_lt data⟩ : Fin 8) = Samples.dataChannel data :=
  Fin.ext (Nat.mod_eq_of_lt (dataChannel_lt data)).symm

theorem handleEnd_spec (b : Board κ) (flagged : Prop) [Decidable flagged] (data : Word) :
    ∃ l, handleEnd b flagged data = some l ∧ ∀ a ∈ l, ∃ c f, a = .call .conversionComplete c f := by
  unfold handleEnd
  rw [notify_eq b _ (dataChannel_lt data)]
  split
  · refine ⟨_, rfl, fun a ha => ?_⟩
    obtain ⟨f, -, hf⟩ := mem_called.mp ha
    exact ⟨_, f, hf.symm⟩
  · exact ⟨[], rfl, fun a ha => absurd ha List.not_mem_nil⟩

theorem handleEnds_spec (b : Board κ) (r : FilterRegisters) :
    ∃ l, handleEnds b r = some l ∧ ∀ a ∈ l, ∃ c f, a = .call .conversionComplete c f := by
  obtain ⟨l, hl, hcalls⟩ := handleEnd_spec b (r.fltisr &&& reocf ≠ 0) r.fltrdatar
  obtain ⟨m, hm, hcalls'⟩ := handleEnd_spec b (r.fltisr &&& jeocf ≠ 0) r.fltjdatar
  refine ⟨l ++ m, ?_, fun a ha => (List.mem_append.mp ha).elim (hcalls a) (hcalls' a)⟩
  unfold handleEnds
  rw [hl, hm]
  rfl

theorem handleOverrun_spec (b : Board κ) (flagged : Prop) [Decidable flagged] (data : Word) (clear : Action κ) :
    ∃ l, handleFlag b flagged .overrun (dataChannel data) clear = some l ∧ Handled b .overrun clear l ∧
      (flagged → l = called b .overrun (Samples.dataChannel data) ++ [clear]) := by
  refine ⟨_, handleFlag_eq (fun _ => dataChannel_lt data) b .overrun clear, handled_dite, fun hflagged => ?_⟩
  rw [dif_pos hflagged, dataChannel_eq]

theorem isSet_of_bit {x : Word} {k : Nat} (hk : k < 32) : x &&& bit k ≠ 0 ↔ x.getLsbD k = true :=
  (and_bit_eq_zero_iff hk x).not.trans (Bool.not_eq_false _).to_iff

theorem handleOverruns_spec (b : Board κ) (r : FilterRegisters) : ∃ l m, handleOverruns b r = some (l ++ m) ∧
    Handled b .overrun (.clearInterrupts rovrf) l ∧ Handled b .overrun (.clearInterrupts jovrf) m ∧
    (Flag.isSet r .regularOverrun →
      l = called b .overrun (Flag.channel r .regularOverrun) ++ [.clearInterrupts rovrf]) ∧
    (Flag.isSet r .injectedOverrun →
      m = called b .overrun (Flag.channel r .injectedOverrun) ++ [.clearInterrupts jovrf]) := by
  obtain ⟨l, hl, hregular, hset⟩ :=
    handleOverrun_spec b (r.fltisr &&& rovrf ≠ 0) r.fltrdatar (.clearInterrupts rovrf)
  obtain ⟨m, hm, hinjected, hset'⟩ :=
    handleOverrun_spec b (r.fltisr &&& jovrf ≠ 0) r.fltjdatar (.clearInterrupts jovrf)
  refine ⟨l, m, ?_, hregular, hinjected, fun h => hset ((isSet_of_bit (by decide)).mpr h),
    fun h => hset' ((isSet_of_bit (by decide)).mpr h)⟩
  unfold handleOverruns
  rw [hl, hm]
  rfl

/-- The watchdog is left where the bit that is looked at is clear, and fails at an upper threshold. -/
theorem handleWatchdog_spec (b : Board κ) (r : FilterRegisters) :
    (r.fltisr.getLsbD 8 = true ∧ (∃ c, (Flag.highThreshold c).isSet r) ∧ handleWatchdog b r = none) ∨
      ∃ l, handleWatchdog b r = some l ∧ (r.fltisr.getLsbD 8 = true → ∀ c, ¬ (Flag.highThreshold c).isSet r) ∧
        LowestHandled b .watchdog (.clearWatchdogs awltf.mask) awltf r.fltawsr
          (fun _ => r.fltisr.getLsbD 8 = true) l ∧ (r.fltisr.getLsbD 8 = false → l = []) := by
  have hbit : r.fltisr &&& (awdf <<< awdfPos) ≠ 0 ↔ r.fltisr.getLsbD 8 = true := by
    rw [awdf, awdfPos, bit_shiftLeft]
    exact isSet_of_bit (by decide)
  unfold handleWatchdog
  cases hset : r.fltisr.getLsbD 8 with
  | false =>
    have hclear : ¬ (r.fltisr &&& (awdf <<< awdfPos) ≠ 0) := fun h =>
      Bool.false_ne_true (hset.symm.trans (hbit.mp h))
    exact .inr ⟨[], if_neg hclear, nofun, .absent nofun, fun _ => rfl⟩
  | true =>
    rw [if_pos (hbit.mpr hset)]
    rcases highThreshold_spec b r with ⟨heq, hnone⟩ | ⟨heq, hsome⟩
    · obtain ⟨l, hl, hlowest⟩ := lowThreshold_spec b r
      refine .inr ⟨l, ?_, fun _ => hnone, ?_, nofun⟩
      · rw [heq, hl]
        rfl
      · cases hlowest with
        | absent h => exact .absent fun c _ => h c trivial
        | lowest c h => exact .lowest c h
    · refine .inl ⟨rfl, hsome, ?_⟩
      rw [heq]
      rfl

/-! ## The whole interrupt -/

/-- The parts of an interrupt that ends. -/
structure Parts (b : Board κ) (r : FilterRegisters)
    (ends regular injected shortCircuits clockAbsences watchdogs : List (Action κ)) : Prop where
  endsCalls : ∀ a ∈ ends, ∃ c f, a = .call .conversionComplete c f
  regularHandled : Handled b .overrun (.clearInterrupts rovrf) regular
  injectedHandled : Handled b .overrun (.clearInterrupts jovrf) injected
  regularSet : Flag.isSet r .regularOverrun →
    regular = called b .overrun (Flag.channel r .regularOverrun) ++ [.clearInterrupts rovrf]
  injectedSet : Flag.isSet r .injectedOverrun →
    injected = called b .overrun (Flag.channel r .injectedOverrun) ++ [.clearInterrupts jovrf]
  shortCircuitsHandled : LowestHandled b .shortCircuit (.clearInterrupts scdf.mask) scdf r.fltisr
    (fun c => b.channelsEnabled.getLsbD c = true) shortCircuits
  clockAbsencesHandled : LowestHandled b .clockAbsence (.clearInterrupts ckabf.mask) ckabf r.fltisr
    (fun c => b.channelsEnabled.getLsbD c = true) clockAbsences
  highThresholds : r.fltisr.getLsbD 8 = true → ∀ c, ¬ (Flag.highThreshold c).isSet r
  watchdogsHandled : LowestHandled b .watchdog (.clearWatchdogs awltf.mask) awltf r.fltawsr
    (fun _ => r.fltisr.getLsbD 8 = true) watchdogs
  watchdogsLeft : r.fltisr.getLsbD 8 = false → watchdogs = []

theorem handleIrq_cases (b : Board κ) (filter : Fin 4) (r : FilterRegisters) (s : Samples.State) :
    (r.fltisr.getLsbD 8 = true ∧ (∃ c, (Flag.highThreshold c).isSet r) ∧ handleIrq b filter r s = none) ∨
      ∃ ends regular injected shortCircuits clockAbsences watchdogs,
        Parts b r ends regular injected shortCircuits clockAbsences watchdogs ∧
        handleIrq b filter r s = some (storeSamples b filter r s,
          ends ++ (regular ++ injected) ++ shortCircuits ++ clockAbsences ++ watchdogs) := by
  obtain ⟨ends, hends, hcalls⟩ := handleEnds_spec b r
  obtain ⟨regular, injected, hoverruns, hregular, hinjected, hregularSet, hinjectedSet⟩ := handleOverruns_spec b r
  obtain ⟨shortCircuits, hshort, hlowest⟩ := handleChannels_spec scdf rfl b r .shortCircuit
  obtain ⟨clockAbsences, hclock, hlowest'⟩ := handleChannels_spec ckabf rfl b r .clockAbsence
  unfold handleIrq
  rw [hends, hoverruns, hshort, hclock]
  rcases handleWatchdog_spec b r with ⟨hbit, hhigh, hnone⟩ | ⟨watchdogs, hwatchdogs, hhigh, hlowest'', hleft⟩
  · rw [hnone]
    exact .inl ⟨hbit, hhigh, rfl⟩
  · rw [hwatchdogs]
    exact .inr ⟨ends, regular, injected, shortCircuits, clockAbsences, watchdogs,
      ⟨hcalls, hregular, hinjected, hregularSet, hinjectedSet, hlowest, hlowest', hhigh, hlowest'', hleft⟩, rfl⟩

section Parts

variable {ends regular injected shortCircuits clockAbsences watchdogs : List (Action κ)}
  (hparts : Parts b r ends regular injected shortCircuits clockAbsences watchdogs)

include hparts

/-- A call is in the part of its kind. -/
theorem Parts.call
    (hcall : .call kind c f ∈ ends ++ (regular ++ injected) ++ shortCircuits ++ clockAbsences ++ watchdogs) :
    kind = .conversionComplete ∨ kind = .overrun ∨ .call kind c f ∈ shortCircuits ∨
      .call kind c f ∈ clockAbsences ∨ .call kind c f ∈ watchdogs := by
  simp only [List.mem_append] at hcall
  rcases hcall with (((hends | hregular | hinjected) | hshort) | hclock) | hwatchdog
  · obtain ⟨_, _, heq⟩ := hparts.endsCalls _ hends
    cases heq
    exact .inl rfl
  · exact .inr (.inl (hparts.regularHandled.call nofun hregular))
  · exact .inr (.inl (hparts.injectedHandled.call nofun hinjected))
  · exact .inr (.inr (.inl hshort))
  · exact .inr (.inr (.inr (.inl hclock)))
  · exact .inr (.inr (.inr (.inr hwatchdog)))

theorem Parts.shortCircuit
    (hcall : .call .shortCircuit c f ∈ ends ++ (regular ++ injected) ++ shortCircuits ++ clockAbsences ++ watchdogs) :
    Lowest scdf r.fltisr c := by
  rcases hparts.call hcall with hkind | hkind | hshort | hclock | hwatchdog
  · cases hkind
  · cases hkind
  · exact (hparts.shortCircuitsHandled.call nofun hshort).2.2
  · cases (hparts.clockAbsencesHandled.call nofun hclock).1
  · cases (hparts.watchdogsHandled.call nofun hwatchdog).1

theorem Parts.clockAbsence
    (hcall : .call .clockAbsence c f ∈ ends ++ (regular ++ injected) ++ shortCircuits ++ clockAbsences ++ watchdogs) :
    callbackOf b .clockAbsence c = some f := by
  rcases hparts.call hcall with hkind | hkind | hshort | hclock | hwatchdog
  · cases hkind
  · cases hkind
  · cases (hparts.shortCircuitsHandled.call nofun hshort).1
  · exact (hparts.clockAbsencesHandled.call nofun hclock).2.1
  · cases (hparts.watchdogsHandled.call nofun hwatchdog).1

theorem Parts.watchdog
    (hcall : .call .watchdog c f ∈ ends ++ (regular ++ injected) ++ shortCircuits ++ clockAbsences ++ watchdogs) :
    .call .watchdog c f ∈ watchdogs := by
  rcases hparts.call hcall with hkind | hkind | hshort | hclock | hwatchdog
  · cases hkind
  · cases hkind
  · cases (hparts.shortCircuitsHandled.call nofun hshort).1
  · cases (hparts.clockAbsencesHandled.call nofun hclock).1
  · exact hwatchdog

theorem Parts.quietEnds (flag : Flag) : ∀ a ∈ ends, ¬ flag.ClearedBy a := by
  intro a ha
  obtain ⟨_, _, rfl⟩ := hparts.endsCalls a ha
  exact not_cleared_call flag

/-- What comes before the short circuits clears no flag but those of the overruns. -/
theorem Parts.quiet (flag : Flag) (hregular : ¬ flag.ClearedBy (Action.clearInterrupts rovrf : Action κ))
    (hinjected : ¬ flag.ClearedBy (Action.clearInterrupts jovrf : Action κ)) :
    ∀ a ∈ ends ++ (regular ++ injected), ¬ flag.ClearedBy a := by
  intro a ha
  simp only [List.mem_append] at ha
  rcases ha with hends | hfirst | hsecond
  · exact hparts.quietEnds flag a hends
  · exact hparts.regularHandled.quiet flag hregular a hfirst
  · exact hparts.injectedHandled.quiet flag hinjected a hsecond

end Parts

/-- Where every callback comes before its flag is cleared, no flag is cleared without it. -/
theorem serves_of_invoked {actions : List (Action κ)} (h : ∀ (flag : Flag) callback, flag.isSet r →
    configured es flag.kind (flag.channel r) = some callback →
    Before (.call flag.kind (flag.channel r) callback) flag.ClearedBy actions) : Serves es r actions where
  invoked := h
  cleared flag callback hset hf _ _ _ hl hclear :=
    (h flag callback hset hf).mem_of_split (not_cleared_call flag) hl hclear

/-! ## What is served -/

/-- The flags of the overruns are below those of the short circuits. -/
theorem overrun_bits :
    ∀ c : Fin 8, ¬ rovrf.getLsbD (scdf.pos + c) = true ∧ ¬ jovrf.getLsbD (scdf.pos + c) = true := by decide

section Served

variable {ends regular injected shortCircuits clockAbsences watchdogs : List (Action κ)}

theorem meets_of_serves (h : build es = some cfgs)
    (hparts : Parts (init cfgs {}) r ends regular injected shortCircuits clockAbsences watchdogs)
    (hserves : Serves es r (ends ++ (regular ++ injected) ++ shortCircuits ++ clockAbsences ++ watchdogs)) :
    Meets es r where
  shortCircuit c hset hf := by
    obtain ⟨f, hf⟩ := Option.ne_none_iff_exists'.mp hf
    exact (hparts.shortCircuit (hserves.invoked (.shortCircuit c) f hset hf).mem).2
  clockAbsence c hset := by
    rw [Option.eq_none_iff_forall_ne_some]
    intro f hf
    have hcallback := hparts.clockAbsence (hserves.invoked (.clockAbsence c) f hset hf).mem
    rw [callbackOf_init h, if_pos rfl] at hcallback
    cases hcallback
  watchdog hbit c hset := by
    rw [Option.eq_none_iff_forall_ne_some]
    intro f hf
    have hcall : .call .watchdog c f ∈ watchdogs := by
      rcases hset with hhigh | hlow
      · exact hparts.watchdog (hserves.invoked (.highThreshold c) f hhigh hf).mem
      · exact hparts.watchdog (hserves.invoked (.lowThreshold c) f hlow hf).mem
    rw [hparts.watchdogsLeft hbit] at hcall
    cases hcall
  reserved hbit := by
    refine ⟨hparts.highThresholds hbit, fun c hset hf => ?_⟩
    obtain ⟨f, hf⟩ := Option.ne_none_iff_exists'.mp hf
    have hcall := hparts.watchdog (hserves.invoked (.lowThreshold c) f hset hf).mem
    exact (hparts.watchdogsHandled.call nofun hcall).2.2.2

theorem serves_of_meets (h : build es = some cfgs)
    (hparts : Parts (init cfgs {}) r ends regular injected shortCircuits clockAbsences watchdogs)
    (hmeets : Meets es r) :
    Serves es r (ends ++ (regular ++ injected) ++ shortCircuits ++ clockAbsences ++ watchdogs) := by
  refine serves_of_invoked fun flag f hset hf => ?_
  have hcallback (hkind : flag.kind ≠ .clockAbsence) :
      callbackOf (init cfgs {}) flag.kind (flag.channel r) = some f := by
    rw [callbackOf_init h, if_neg hkind, hf]
  cases flag with
  | regularOverrun =>
    have hbefore : Before (.call .overrun (Flag.regularOverrun.channel r) f) Flag.regularOverrun.ClearedBy regular := by
      rw [hparts.regularSet hset]
      exact before_called (hcallback nofun) _ _
    have hoverruns := (hbefore.append_right injected).append_left (hparts.quietEnds _)
    exact ((hoverruns.append_right _).append_right _).append_right _
  | injectedOverrun =>
    have hbefore : Before (.call .overrun (Flag.injectedOverrun.channel r) f) Flag.injectedOverrun.ClearedBy injected := by
      rw [hparts.injectedSet hset]
      exact before_called (hcallback nofun) _ _
    have hregular := hparts.regularHandled.quiet .injectedOverrun (by decide : ¬ rovrf.getLsbD 2 = true)
    have hoverruns := (hbefore.append_left hregular).append_left (hparts.quietEnds _)
    exact ((hoverruns.append_right _).append_right _).append_right _
  | shortCircuit c =>
    have hbelow := hmeets.shortCircuit c hset (Option.ne_none_iff_exists'.mpr ⟨f, hf⟩)
    have hserved := hparts.shortCircuitsHandled.served (enabled_of_configured h hf) ⟨hset, hbelow⟩
      (hcallback nofun) (.shortCircuit c)
    obtain ⟨hrovrf, hjovrf⟩ := overrun_bits c
    have hquiet := hparts.quiet (.shortCircuit c) hrovrf hjovrf
    exact ((hserved.append_left hquiet).append_right _).append_right _
  | clockAbsence c =>
    cases (hmeets.clockAbsence c hset).symm.trans hf
  | highThreshold c =>
    cases hbit : r.fltisr.getLsbD 8 with
    | false => cases (hmeets.watchdog hbit c (.inl hset)).symm.trans hf
    | true => exact absurd hset ((hmeets.reserved hbit).1 c)
  | lowThreshold c =>
    cases hbit : r.fltisr.getLsbD 8 with
    | false => cases (hmeets.watchdog hbit c (.inr hset)).symm.trans hf
    | true =>
      have hbelow := (hmeets.reserved hbit).2 c hset (Option.ne_none_iff_exists'.mpr ⟨f, hf⟩)
      have hserved := hparts.watchdogsHandled.served hbit ⟨hset, hbelow⟩ (hcallback nofun) (.lowThreshold c)
      have hquiet := hparts.quiet (.lowThreshold c) id id
      have hshort := hparts.shortCircuitsHandled.handled.quiet (.lowThreshold c) id
      have hclock := hparts.clockAbsencesHandled.handled.quiet (.lowThreshold c) id
      refine hserved.append_left fun a ha => ?_
      rcases List.mem_append.mp ha with hbefore | hlast
      · exact (List.mem_append.mp hbefore).elim (hquiet a) (hshort a)
      · exact hclock a hlast

end Served

theorem meets_of_right (h : build es = some cfgs) {filter : Fin 4} {s : Samples.State}
    (hright : Right es r (handleIrq (init cfgs {}) filter r s)) : Meets es r := by
  obtain ⟨s', actions, hdone, hserves⟩ := hright
  rcases handleIrq_cases (init cfgs {}) filter r s with ⟨-, -, hnone⟩ | ⟨_, _, _, _, _, _, hparts, hsome⟩
  · cases hnone.symm.trans hdone
  · cases hsome.symm.trans hdone
    exact meets_of_serves h hparts hserves

/-- **The interrupts of a filter.** Every flag has its callback called before it is cleared exactly under the
condition: the channel is the lowest with a flag, the callback of the clock absences is in no instance, and
the flag of the watchdog is looked for in another bit. -/
theorem interrupts_right_iff (h : build es = some cfgs) (filter : Fin 4) (r : FilterRegisters) (s : Samples.State) :
    Right es r (handleIrq (init cfgs {}) filter r s) ↔ Meets es r := by
  refine ⟨meets_of_right h, fun hmeets => ?_⟩
  rcases handleIrq_cases (init cfgs {}) filter r s with ⟨hbit, ⟨c, hc⟩, -⟩ | ⟨_, _, _, _, _, _, hparts, hsome⟩
  · exact absurd hc ((hmeets.reserved hbit).1 c)
  · exact ⟨_, _, hsome, serves_of_meets h hparts hmeets⟩

/-- A channel that is protected against short circuits and clock absences. -/
def protectedEntry : Entry Kind where
  entry := { configFilter := {}, channel := 2, bufferSize := 1, fits := Model.one_lt_sizeLimit }
  callbacks := { shortCircuit := some .shortCircuit, clockAbsence := some .clockAbsence }

def flagged (fltisr : Word) : FilterRegisters where
  fltisr
  fltrdatar := 0
  fltjdatar := 0
  fltawsr := 0

theorem interrupts_right_iff_short :
    Right [protectedEntry] (flagged (bit 26))
      (handleIrq (init [⟨protectedEntry.entry.config, protectedEntry.callbacks⟩] {}) 0 (flagged (bit 26)) {}) := by
  refine (interrupts_right_iff ?_ 0 (flagged (bit 26)) {}).mpr ⟨?_, ?_, ?_, ?_⟩
  · rfl
  · simp only [Flag.isSet]
    decide
  · simp only [Flag.isSet]
    decide
  · simp only [Flag.isSet]
    decide
  · simp only [Flag.isSet]
    decide

/-- The absence of a clock is cleared without its callback. -/
theorem clock_absence_lost :
    ∃ cfgs, build [protectedEntry] = some cfgs ∧
      ¬ Right [protectedEntry] (flagged (bit 18)) (handleIrq (init cfgs {}) 0 (flagged (bit 18)) {}) := by
  refine ⟨_, rfl, fun hright => ?_⟩
  have hmeets := meets_of_right rfl hright
  have hnone : configured [protectedEntry] .clockAbsence 2 = none := hmeets.clockAbsence 2 rfl
  cases hnone

end StLib.Dfsdm.Interrupts
