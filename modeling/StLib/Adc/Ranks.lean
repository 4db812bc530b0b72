import StLib.Adc.Init

/-! # The ranks of the channels

What the initialisation leaves in the handles: the channels of a peripheral are configured to
their ranks in the list of configurations, which are the ranks that the instances were counted
with. -/
namespace StLib.Adc.Ranks

open StLib.Base.OccurrenceRank
open StLib.Board
open StLib.Adc.Build StLib.Adc.Init

variable {cfgs : List Config} {cfg : Config} {sizes : BufferSizes} {hal : Hal} {k : Fin 3}

/-! ## The counts -/

theorem peripheralFromIndex_index {p : Peripheral} (h : p ≠ .auto) :
    peripheralFromIndex (peripheralIndex p) = p := by
  cases p with
  | auto => exact absurd rfl h
  | adc1 => rfl
  | adc2 => rfl
  | adc3 => rfl

theorem peripheralIndex_fromIndex : ∀ k : Fin 3, peripheralIndex (peripheralFromIndex k) = k := by decide

theorem index_eq_iff (h : cfg.peripheral ≠ .auto) : index cfg = k ↔ cfg.peripheral = peripheralFromIndex k := by
  constructor
  · rintro rfl
    exact (peripheralFromIndex_index h).symm
  · intro hp
    rw [index, hp, peripheralIndex_fromIndex]

/-- One slot for each configuration of a peripheral. -/
def sizesOf (cfgs : List Config) : BufferSizes where
  adc1Size := (group index cfgs 0).length
  adc2Size := (group index cfgs 1).length
  adc3Size := (group index cfgs 2).length

theorem calculateBufferSizes_eq (h : ∀ cfg ∈ cfgs, cfg.peripheral ≠ .auto) (sizes : BufferSizes) :
    calculateBufferSizes sizes cfgs = .ok
      { adc1Size := sizes.adc1Size + (sizesOf cfgs).adc1Size
        adc2Size := sizes.adc2Size + (sizesOf cfgs).adc2Size
        adc3Size := sizes.adc3Size + (sizesOf cfgs).adc3Size } := by
  induction cfgs generalizing sizes with
  | nil => rfl
  | cons cfg cfgs ih =>
    obtain ⟨hcfg, hrest⟩ := List.forall_mem_cons.mp h
    rw [calculateBufferSizes]
    split
    · next hp =>
      have hindex : index cfg = 0 := congrArg peripheralIndex hp
      rw [ih hrest]
      simp [sizesOf, length_group_cons, hindex, Nat.add_assoc]
    · next hp =>
      have hindex : index cfg = 1 := congrArg peripheralIndex hp
      rw [ih hrest]
      simp [sizesOf, length_group_cons, hindex, Nat.add_assoc]
    · next hp =>
      have hindex : index cfg = 2 := congrArg peripheralIndex hp
      rw [ih hrest]
      simp [sizesOf, length_group_cons, hindex, Nat.add_assoc]
    · next hp => exact absurd hp hcfg

theorem bufferSizeFor_sizesOf (cfgs : List Config) (k : Fin 3) :
    (sizesOf cfgs).bufferSizeFor (peripheralFromIndex k) = (group index cfgs k).length :=
  match k with
  | 0 => rfl
  | 1 => rfl
  | 2 => rfl

theorem countChannels_eq (h : ∀ cfg ∈ cfgs, isResolvedConfig cfg = true) (counts : Fin 3 → Nat) :
    countChannels counts cfgs = ((number index counts cfgs).1.map some, (number index counts cfgs).2) := by
  induction cfgs generalizing counts with
  | nil => rfl
  | cons cfg cfgs ih =>
    obtain ⟨hcfg, hrest⟩ := List.forall_mem_cons.mp h
    have hcounted := ih hrest (Function.update counts (index cfg) (counts (index cfg) + 1))
    rw [countChannels, if_pos hcfg]
    change (some (counts (index cfg)) ::
        (countChannels (Function.update counts (index cfg) (counts (index cfg) + 1)) cfgs).1,
      (countChannels (Function.update counts (index cfg) (counts (index cfg) + 1)) cfgs).2) = _
    rw [hcounted]
    rfl

/-! ## The sequence of a peripheral -/

/-- The channels from a rank on. -/
structure Sequenced (cfgs : List Config) (k : Fin 3) (rank : Nat) (before after : Handle) : Prop where
  configured : ∀ n cfg, (group index cfgs k)[n]? = some cfg →
    after.sequence (regularRank (rank + n)) = some (cfg.channel, cfg.sampleTime)
  below : ∀ r : Rank, r.val < rank → after.sequence r = before.sequence r

theorem regularRank_val {n : Nat} (h : n < 16) : (regularRank n).val = n := by
  rw [regularRank, dif_pos h]

theorem configChannels_sequenced (hresolved : ∀ cfg ∈ cfgs, cfg.peripheral ≠ .auto) {rank : Nat} {h h' : Handle}
    (hroom : rank + (group index cfgs k).length ≤ 16)
    (hdone : configChannels hal (peripheralFromIndex k) rank cfgs h = (h', true)) : Sequenced cfgs k rank h h' := by
  induction cfgs generalizing rank h with
  | nil =>
    obtain ⟨rfl, -⟩ := Prod.mk.inj hdone
    exact ⟨fun n c hc => absurd (List.getElem?_nil.symm.trans hc).symm (Option.some_ne_none c), fun _ _ => rfl⟩
  | cons cfg cfgs ih =>
    obtain ⟨hcfg, hrest⟩ := List.forall_mem_cons.mp hresolved
    rw [configChannels] at hdone
    by_cases hindex : index cfg = k
    · rw [if_neg (not_not.mpr ((index_eq_iff hcfg).mp hindex))] at hdone
      have hgroup : group index (cfg :: cfgs) k = cfg :: group index cfgs k := hindex ▸ group_cons_self cfg cfgs
      rw [hgroup, List.length_cons] at hroom
      split at hdone
      · have hlater := ih hrest (by omega) hdone
        have hfirst : (regularRank rank).val < rank + 1 := by
          rw [regularRank_val (by omega)]
          exact Nat.lt_succ_self rank
        constructor
        · intro n c hc
          rw [hgroup] at hc
          cases n with
          | zero =>
            obtain rfl := Option.some.inj hc
            exact (hlater.below _ hfirst).trans (Function.update_self ..)
          | succ n =>
            have hn := hlater.configured n c hc
            rwa [Nat.add_assoc, Nat.add_comm 1 n] at hn
        · intro r hr
          have hne : r ≠ regularRank rank := by
            rintro rfl
            rw [regularRank_val (by omega)] at hr
            exact Nat.lt_irrefl _ hr
          exact (hlater.below r (Nat.lt_succ_of_lt hr)).trans (Function.update_of_ne hne ..)
      · cases hdone
    · rw [if_pos fun hp => hindex ((index_eq_iff hcfg).mpr hp)] at hdone
      rw [group_cons_ne cfg cfgs hindex] at hroom
      obtain ⟨hconfigured, hbelow⟩ := ih hrest hroom hdone
      refine ⟨fun n c hc => hconfigured n c ?_, hbelow⟩
      rwa [group_cons_ne cfg cfgs hindex] at hc

/-- Nothing but the sequence is configured. -/
theorem configChannels_fields (hal : Hal) (p : Peripheral) (cfgs : List Config) (rank : Nat) (h : Handle) :
    (configChannels hal p rank cfgs h).1.init = h.init ∧
      (configChannels hal p rank cfgs h).1.transfer = h.transfer := by
  induction cfgs generalizing rank h with
  | nil => exact ⟨rfl, rfl⟩
  | cons cfg cfgs ih =>
    rw [configChannels]
    split
    · exact ih rank h
    · split
      · exact ih (rank + 1) _
      · exact ⟨rfl, rfl⟩

/-! ## A peripheral -/

/-- The peripheral converts its channels by their ranks, into its part of the pool. -/
structure Started (cfgs : List Config) (k : Fin 3) (h : Handle) : Prop where
  nonempty : 0 < (group index cfgs k).length
  transfer : h.transfer =
    some ((sizesOf cfgs).bufferOffsetFor (peripheralFromIndex k), (group index cfgs k).length)
  conversions : h.init.map InitTypeDef.nbrOfConversion = some (group index cfgs k).length
  sequence : ∀ n cfg, (group index cfgs k)[n]? = some cfg →
    h.sequence (regularRank n) = some (cfg.channel, cfg.sampleTime)

/-- A turn of the loop touches one handle. -/
structure Turn (cfgs : List Config) (k : Fin 3) (d : Device) (after : Device × Bool) : Prop where
  started : after.2 = true → Started cfgs k (after.1.handles k)
  stopped : after.2 = false → (d.handles k).transfer = none → (after.1.handles k).transfer = none
  others : ∀ q, q ≠ k → after.1.handles q = d.handles q
  pool : (∀ a, d.dmaBufferPool a = 0) → ∀ a, after.1.dmaBufferPool a = 0

section Turn

variable {d : Device} {h : Handle} {message : String}

theorem setHandle_self (d : Device) (k : Fin 3) (h : Handle) : (d.setHandle k h).handles k = h :=
  Function.update_self ..

theorem setHandle_of_ne (d : Device) {q : Fin 3} (hq : q ≠ k) (h : Handle) :
    (d.setHandle k h).handles q = d.handles q := Function.update_of_ne hq ..

/-- A turn that ends with a message. -/
theorem turn_panic (htransfer : (d.handles k).transfer = none → h.transfer = none) :
    Turn cfgs k d ((d.setHandle k h).panic message, false) where
  started := nofun
  stopped _ hnone := (congrArg Handle.transfer (setHandle_self d k h)).trans (htransfer hnone)
  others _ hq := setHandle_of_ne d hq h
  pool hzero := hzero

theorem stopDma_transfer (hnone : h.transfer = none) : (stopDma h).transfer = none := by
  rw [stopDma]
  split
  · rfl
  · exact hnone

theorem Turn.after_stop {after : Device × Bool}
    (h : Turn cfgs k (d.setHandle k (stopDma (d.handles k))) after) : Turn cfgs k d after where
  started := h.started
  stopped hready hnone := h.stopped hready
    ((congrArg Handle.transfer (setHandle_self d k _)).trans (stopDma_transfer hnone))
  others q hq := (h.others q hq).trans (setHandle_of_ne d hq _)
  pool := h.pool

theorem Turn.after_clear {after : Device × Bool} (buffer size : Nat) (h : Turn cfgs k (d.clear buffer size) after) :
    Turn cfgs k d after where
  started := h.started
  stopped := h.stopped
  others := h.others
  pool hzero := h.pool fun a => by
    change (if buffer ≤ a ∧ a < buffer + size then 0 else d.dmaBufferPool a) = 0
    rw [hzero a, ite_self]

/-- The DMA is started once the channels are configured. -/
theorem turn_started (haccepted : Accepted cfgs) (hsome : 0 < (group index cfgs k).length) {h h' : Handle}
    (hconversions : h.init.map InitTypeDef.nbrOfConversion = some (group index cfgs k).length)
    (hdone : configChannels hal (peripheralFromIndex k) 0 cfgs h = (h', true)) (d : Device) :
    Turn cfgs k d (d.setHandle k { h' with
      transfer := some ((sizesOf cfgs).bufferOffsetFor (peripheralFromIndex k), (group index cfgs k).length) },
      true) where
  started _ := by
    rw [setHandle_self]
    have hroom : 0 + (group index cfgs k).length ≤ 16 := (Nat.zero_add _).trans_le (haccepted.few k)
    have hsequenced := configChannels_sequenced (fun cfg hcfg => (haccepted.resolved cfg hcfg).1) hroom hdone
    have hfields := configChannels_fields hal (peripheralFromIndex k) cfgs 0 h
    rw [hdone] at hfields
    refine ⟨hsome, rfl, ?_, fun n cfg hcfg => ?_⟩
    · rw [← hconversions, ← hfields.1]
    · have hconfigured := hsequenced.configured n cfg hcfg
      rwa [Nat.zero_add] at hconfigured
  stopped := nofun
  others _ hq := setHandle_of_ne d hq _
  pool hzero := hzero

theorem turn_start (haccepted : Accepted cfgs) (hsome : 0 < (group index cfgs k).length) (firstCfg : Config)
    (dma : Nat) (d : Device) :
    Turn cfgs k d (startPeripheral (sizesOf cfgs) cfgs hal (fun k => (group index cfgs k).length) firstCfg
      ((sizesOf cfgs).bufferOffsetFor (peripheralFromIndex k)) dma k d) := by
  rw [startPeripheral]
  dsimp only
  refine Turn.after_clear ((sizesOf cfgs).bufferOffsetFor (peripheralFromIndex k))
    ((sizesOf cfgs).bufferSizeFor (peripheralFromIndex k)) ?_
  generalize d.clear _ _ = d
  have hfields := configChannels_fields hal (peripheralFromIndex k) cfgs 0
    (configurePeripheral firstCfg (group index cfgs k).length { d.handles k with dmaHandle := some dma })
  split
  · split
    · next h' hc =>
      rw [hc] at hfields
      exact turn_panic fun hnone => hfields.2.trans hnone
    · next h' hc =>
      split
      · exact turn_started haccepted hsome rfl hc d
      · rw [hc] at hfields
        exact turn_panic fun hnone => hfields.2.trans hnone
  · exact turn_panic id

/-- A turn that does nothing. -/
theorem turn_skip (d : Device) : Turn cfgs k d (d, false) where
  started := nofun
  stopped _ hnone := hnone
  others _ _ := rfl
  pool hzero := hzero

theorem getDmaBuffer_ok {p : Peripheral} {buffer : Nat} (h : sizes.getDmaBuffer p = .ok buffer) :
    buffer = sizes.bufferOffsetFor p := by
  rw [BufferSizes.getDmaBuffer] at h
  split at h
  · cases h
  · split at h
    · cases h
    · exact (Except.ok.inj h).symm

theorem turn_initPeripheral (haccepted : Accepted cfgs) (dmas : List DmaModel.Handle) (k : Fin 3) (d : Device) :
    Turn cfgs k d (initPeripheral (sizesOf cfgs) cfgs dmas hal (fun k => (group index cfgs k).length) k d) := by
  rw [initPeripheral]
  split
  · exact turn_skip d
  · next hsome =>
    split
    · exact turn_skip d
    · dsimp only
      split
      · exact turn_panic stopDma_transfer
      · split
        · exact turn_panic stopDma_transfer
        · next buffer hbuffer =>
          obtain rfl := getDmaBuffer_ok hbuffer
          exact Turn.after_stop (turn_start haccepted (Nat.pos_of_ne_zero hsome) _ _ _)

end Turn

/-! ## All peripherals -/

/-- The parts of the pool lie side by side. -/
theorem parts_apart (sizes : BufferSizes) {p q : Peripheral} (h : p ≠ q) :
    sizes.bufferOffsetFor p + sizes.bufferSizeFor p ≤ sizes.bufferOffsetFor q ∨
      sizes.bufferOffsetFor q + sizes.bufferSizeFor q ≤ sizes.bufferOffsetFor p := by
  cases p <;> cases q <;> simp only [BufferSizes.bufferOffsetFor, BufferSizes.bufferSizeFor] <;>
    first | omega | exact absurd rfl h

theorem part_inside (sizes : BufferSizes) (p : Peripheral) :
    sizes.bufferOffsetFor p + sizes.bufferSizeFor p ≤ sizes.totalDmaSlots := by
  cases p <;> simp only [BufferSizes.bufferOffsetFor, BufferSizes.bufferSizeFor, BufferSizes.totalDmaSlots] <;>
    omega

theorem getDmaBuffer_eq (hsome : 0 < (group index cfgs k).length) :
    (sizesOf cfgs).getDmaBuffer (peripheralFromIndex k) =
      .ok ((sizesOf cfgs).bufferOffsetFor (peripheralFromIndex k)) := by
  have hinside := part_inside (sizesOf cfgs) (peripheralFromIndex k)
  rw [← bufferSizeFor_sizesOf] at hsome
  rw [BufferSizes.getDmaBuffer, if_neg (Nat.ne_of_gt hsome), if_neg (Nat.not_lt.mpr hinside)]

/-- Where the HAL succeeds. -/
structure Succeeds (cfgs : List Config) (dmas : List DmaModel.Handle) (hal : Hal) : Prop where
  init : ∀ k, hal.init k = true
  configChannel : ∀ k r, hal.configChannel k r = true
  startDma : ∀ k, hal.startDma k = true
  found : ∀ cfg ∈ cfgs, DmaModel.findDmaInstance cfg.dmaRequest dmas ≠ none

theorem configChannels_succeeds (hsucceeds : ∀ k r, hal.configChannel k r = true) (p : Peripheral)
    (cfgs : List Config) (rank : Nat) (h : Handle) : (configChannels hal p rank cfgs h).2 = true := by
  induction cfgs generalizing rank h with
  | nil => rfl
  | cons cfg cfgs ih =>
    rw [configChannels]
    split
    · exact ih rank h
    · rw [if_pos (hsucceeds _ _)]
      exact ih (rank + 1) _

theorem ready_initPeripheral {dmas : List DmaModel.Handle} (haccepted : Accepted cfgs)
    (hsucceeds : Succeeds cfgs dmas hal) (hsome : 0 < (group index cfgs k).length) (d : Device) :
    (initPeripheral (sizesOf cfgs) cfgs dmas hal (fun k => (group index cfgs k).length) k d).2 = true := by
  obtain ⟨cfg, hcfg⟩ := List.exists_mem_of_length_pos hsome
  obtain ⟨hmem, hindex⟩ := List.mem_filter.mp hcfg
  have hperipheral : cfg.peripheral = peripheralFromIndex k :=
    (index_eq_iff (haccepted.resolved cfg hmem).1).mp (of_decide_eq_true hindex)
  rw [initPeripheral, if_neg (Nat.ne_of_gt hsome)]
  split
  · next hnone => exact absurd (List.find?_eq_none.mp hnone cfg hmem) (by simp [hperipheral])
  · next firstCfg hfirst =>
    dsimp only
    split
    · next hnone => exact absurd hnone (hsucceeds.found firstCfg (List.mem_of_find?_eq_some hfirst))
    · rw [getDmaBuffer_eq hsome]
      dsimp only
      rw [startPeripheral]
      dsimp only
      rw [if_pos (hsucceeds.init k)]
      have hdone := configChannels_succeeds hsucceeds.configChannel (peripheralFromIndex k) cfgs 0
      split
      · next hc => exact absurd (hdone _) (by rw [hc]; exact Bool.false_ne_true)
      · rw [if_pos (hsucceeds.startDma k)]

theorem initPeripherals_spec (haccepted : Accepted cfgs) (dmas : List DmaModel.Handle) {ps : List (Fin 3)}
    (hnodup : ps.Nodup) (ready : Fin 3 → Bool) (d : Device) (hpool : ∀ a, d.dmaBufferPool a = 0)
    (hnone : ∀ k ∈ ps, (d.handles k).transfer = none) {after : Device × (Fin 3 → Bool)}
    (hafter : initPeripherals (sizesOf cfgs) cfgs dmas hal (fun k => (group index cfgs k).length) ps ready d = after) :
    (∀ k ∈ ps, (after.2 k = true → Started cfgs k (after.1.handles k)) ∧
      (after.2 k = false → (after.1.handles k).transfer = none) ∧
      (Succeeds cfgs dmas hal → 0 < (group index cfgs k).length → after.2 k = true)) ∧
      (∀ k, k ∉ ps → after.1.handles k = d.handles k ∧ after.2 k = ready k) ∧
      ∀ a, after.1.dmaBufferPool a = 0 := by
  induction ps generalizing ready d with
  | nil =>
    subst hafter
    exact ⟨nofun, fun k _ => ⟨rfl, rfl⟩, hpool⟩
  | cons p ps ih =>
    obtain ⟨hp, hnodup⟩ := List.nodup_cons.mp hnodup
    have hturn : Turn cfgs p d (initPeripheral (sizesOf cfgs) cfgs dmas hal
        (fun k => (group index cfgs k).length) p d) := turn_initPeripheral haccepted dmas p d
    have hnext : ∀ k ∈ ps, ((initPeripheral (sizesOf cfgs) cfgs dmas hal
        (fun k => (group index cfgs k).length) p d).1.handles k).transfer = none := by
      intro k hk
      have hne : k ≠ p := fun heq => hp (heq ▸ hk)
      rw [hturn.others k hne]
      exact hnone k (List.mem_cons_of_mem p hk)
    obtain ⟨hall, hothers, hzero⟩ := ih hnodup _ _ (hturn.pool hpool) hnext hafter
    obtain ⟨hhandle, hready⟩ := hothers p hp
    rw [Function.update_self] at hready
    refine ⟨List.forall_mem_cons.mpr ⟨⟨?_, ?_, ?_⟩, hall⟩, fun k hk => ?_, hzero⟩
    · rw [hhandle, hready]
      exact hturn.started
    · rw [hhandle, hready]
      exact fun hstopped => hturn.stopped hstopped (hnone p List.mem_cons_self)
    · rw [hready]
      exact fun hsucceeds hsome => ready_initPeripheral haccepted hsucceeds hsome d
    · obtain ⟨hkp, hkps⟩ := not_or.mp (mt List.mem_cons.mpr hk)
      obtain ⟨hsame, hsame'⟩ := hothers k hkps
      rw [hsame, hsame', hturn.others k hkp, Function.update_of_ne hkp]
      exact ⟨rfl, rfl⟩

end StLib.Adc.Ranks
