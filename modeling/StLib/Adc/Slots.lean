import StLib.Adc.Ranks

/-! # The slots of the instances

The converters run through their sequences, and the DMA moves each conversion, half a word,
into the pool. An instance reads what its own channel was last converted to. -/
namespace StLib.Adc.Slots

open StLib.Base.OccurrenceRank
open StLib.Board
open StLib.Board.DmaModel (Numbers)
open StLib.Adc.Build StLib.Adc.Init StLib.Adc.Ranks

/-! ## Conversions -/

/-- `position` is in the sequence of a converter, `dmaPosition` in its buffer. `converted` is
the last conversion of each channel. -/
structure Converters where
  position : Fin 3 → Nat := fun _ => 0
  dmaPosition : Fin 3 → Nat := fun _ => 0
  dmaBufferPool : Nat → BitVec 16
  converted : Fin 3 × Channel → BitVec 16 := fun _ => 0

/-- A conversion of a peripheral. The sequence and the buffer are circular. -/
def convert (handles : Fin 3 → Handle) (c : Converters) (sample : Fin 3 × BitVec 16) : Converters :=
  let (p, v) := sample
  match (handles p).transfer, (handles p).init with
  | some (buffer, length), some init =>
    { position := Function.update c.position p ((c.position p + 1) % init.nbrOfConversion)
      dmaPosition := Function.update c.dmaPosition p ((c.dmaPosition p + 1) % length)
      dmaBufferPool := Function.update c.dmaBufferPool (buffer + c.dmaPosition p) v
      converted :=
        match (handles p).sequence (regularRank (c.position p)) with
        | some (channel, _) => Function.update c.converted (p, channel) v
        | none => c.converted }
  | _, _ => c

/-- Any conversions after the initialisation. -/
def conversions (d : Device) (samples : List (Fin 3 × BitVec 16)) : Converters :=
  samples.foldl (convert d.handles) { dmaBufferPool := d.dmaBufferPool }

def maxRawForResolution : Resolution → Nat
  | .bits16 => 65535
  | .bits14 => 16383
  | .bits12 => 4095
  | .bits10 => 1023
  | .bits8 => 255

/-- `get_raw`, which is a whole number. -/
def getRaw (x : Instance) (dmaBufferPool : Nat → BitVec 16) : Nat :=
  match x.dmaSlot with
  | none => 0
  | some slot => min (dmaBufferPool slot).toNat (maxRawForResolution x.resolution)

/-! ## Slots -/

structure SlotsFollowRanks (cfgs : List Config) (sizes : BufferSizes) (d : Device) (instances : List Instance) :
    Prop where
  count : instances.length = cfgs.length
  apart : ∀ p q, p ≠ q → sizes.bufferOffsetFor p + sizes.bufferSizeFor p ≤ sizes.bufferOffsetFor q ∨
    sizes.bufferOffsetFor q + sizes.bufferSizeFor q ≤ sizes.bufferOffsetFor p
  inside : ∀ p, sizes.bufferOffsetFor p + sizes.bufferSizeFor p ≤ sizes.totalDmaSlots
  distinct : ∀ (i j : Nat) (x y : Instance) (slot : Nat),
    instances[i]? = some x → instances[j]? = some y → x.dmaSlot = some slot →
    y.dmaSlot = some slot → i = j
  ranked : ∀ (i : Nat) (cfg : Config) (x : Instance) (slot : Nat),
    cfgs[i]? = some cfg → instances[i]? = some x → x.dmaSlot = some slot →
    ∃ n < sizes.bufferSizeFor cfg.peripheral, slot = sizes.bufferOffsetFor cfg.peripheral + n ∧
      (regularRank n).val = n ∧
      (d.handles (peripheralIndex cfg.peripheral)).sequence (regularRank n) = some (cfg.channel, cfg.sampleTime)
  reads : ∀ samples (i : Nat) (cfg : Config) (x : Instance),
    cfgs[i]? = some cfg → instances[i]? = some x → x.dmaSlot ≠ none →
    getRaw x (conversions d samples).dmaBufferPool =
      min ((conversions d samples).converted (peripheralIndex cfg.peripheral, cfg.channel)).toNat
        (maxRawForResolution cfg.resolution)

/-! ## What is converted -/

section Conversions

variable {cfgs : List Config} {handles : Fin 3 → Handle} {c : Converters} {p : Fin 3}

/-- Each slot of a peripheral that was started holds the last conversion of its channel. -/
structure Tracks (cfgs : List Config) (handles : Fin 3 → Handle) (c : Converters) : Prop where
  aligned : ∀ k, Started cfgs k (handles k) → c.position k = c.dmaPosition k ∧
    c.position k < (group index cfgs k).length
  slots : ∀ k, Started cfgs k (handles k) → ∀ n cfg, (group index cfgs k)[n]? = some cfg →
    c.dmaBufferPool ((sizesOf cfgs).bufferOffsetFor (peripheralFromIndex k) + n) = c.converted (k, cfg.channel)

theorem group_peripheral (haccepted : Accepted cfgs) {k : Fin 3} {n : Nat} {a : Config}
    (ha : (group index cfgs k)[n]? = some a) : a.peripheral = peripheralFromIndex k := by
  obtain ⟨hmem, hindex⟩ := List.mem_filter.mp (List.mem_of_getElem? ha)
  exact (index_eq_iff (haccepted.resolved a hmem).1).mp (of_decide_eq_true hindex)

theorem channel_ne (haccepted : Accepted cfgs) {k : Fin 3} {n m : Nat} {a b : Config}
    (ha : (group index cfgs k)[n]? = some a) (hb : (group index cfgs k)[m]? = some b) (hlt : n < m) :
    a.channel ≠ b.channel := by
  intro hchannel
  have hdistinct := haccepted.distinct.filter fun cfg => index cfg = k
  obtain ⟨hn, rfl⟩ := List.getElem?_eq_some_iff.mp ha
  obtain ⟨hm, rfl⟩ := List.getElem?_eq_some_iff.mp hb
  refine List.pairwise_iff_getElem.mp hdistinct n m hn hm hlt (Prod.ext ?_ hchannel)
  exact (group_peripheral haccepted ha).trans (group_peripheral haccepted hb).symm

/-- A peripheral has no channel twice. -/
theorem channel_injective (haccepted : Accepted cfgs) {k : Fin 3} {n m : Nat} {a b : Config}
    (ha : (group index cfgs k)[n]? = some a) (hb : (group index cfgs k)[m]? = some b)
    (hchannel : a.channel = b.channel) : n = m := by
  rcases Nat.lt_trichotomy n m with hlt | heq | hgt
  · exact absurd hchannel (channel_ne haccepted ha hb hlt)
  · exact heq
  · exact absurd hchannel.symm (channel_ne haccepted hb ha hgt)

/-- Two slots are one only for one peripheral. -/
theorem slot_injective {k q : Fin 3} {n m : Nat} (hn : n < (group index cfgs k).length)
    (hm : m < (group index cfgs q).length)
    (h : (sizesOf cfgs).bufferOffsetFor (peripheralFromIndex k) + n =
      (sizesOf cfgs).bufferOffsetFor (peripheralFromIndex q) + m) : k = q ∧ n = m := by
  by_cases hkq : k = q
  · subst hkq
    exact ⟨rfl, Nat.add_left_cancel h⟩
  · have hne : peripheralFromIndex k ≠ peripheralFromIndex q := fun heq => hkq <| by
      rw [← peripheralIndex_fromIndex k, heq, peripheralIndex_fromIndex]
    have hapart := parts_apart (sizesOf cfgs) hne
    rw [bufferSizeFor_sizesOf, bufferSizeFor_sizesOf] at hapart
    omega

theorem convert_started (hstarted : Started cfgs p (handles p)) (htracks : Tracks cfgs handles c) {cfg : Config}
    (hcfg : (group index cfgs p)[c.position p]? = some cfg) (v : BitVec 16) :
    convert handles c (p, v) =
      { position := Function.update c.position p ((c.position p + 1) % (group index cfgs p).length)
        dmaPosition := Function.update c.dmaPosition p ((c.position p + 1) % (group index cfgs p).length)
        dmaBufferPool := Function.update c.dmaBufferPool
          ((sizesOf cfgs).bufferOffsetFor (peripheralFromIndex p) + c.position p) v
        converted := Function.update c.converted (p, cfg.channel) v } := by
  obtain ⟨init, hinit, hconversions⟩ := Option.map_eq_some_iff.mp hstarted.conversions
  have hsequence := hstarted.sequence _ cfg hcfg
  obtain ⟨haligned, -⟩ := htracks.aligned p hstarted
  rw [convert, hstarted.transfer, hinit]
  dsimp only
  rw [hsequence, hconversions, ← haligned]

/-- What one conversion preserves. -/
theorem Tracks.convert (haccepted : Accepted cfgs)
    (hhandles : ∀ k, Started cfgs k (handles k) ∨ (handles k).transfer = none) (h : Tracks cfgs handles c)
    (sample : Fin 3 × BitVec 16) : Tracks cfgs handles (convert handles c sample) := by
  obtain ⟨p, v⟩ := sample
  rcases hhandles p with hstarted | hnone
  · have hposition := (h.aligned p hstarted).2
    obtain ⟨cfg, hcfg⟩ : ∃ cfg, (group index cfgs p)[c.position p]? = some cfg :=
      ⟨_, List.getElem?_eq_getElem hposition⟩
    rw [convert_started hstarted h hcfg]
    constructor
    · intro k hk
      dsimp only
      by_cases hkp : k = p
      · subst hkp
        rw [Function.update_self, Function.update_self]
        exact ⟨rfl, Nat.mod_lt _ hk.nonempty⟩
      · rw [Function.update_of_ne hkp, Function.update_of_ne hkp]
        exact h.aligned k hk
    · intro k hk n cfg' hcfg'
      have hn := (List.getElem?_eq_some_iff.mp hcfg').1
      dsimp only
      by_cases hsame : k = p ∧ n = c.position p
      · obtain ⟨rfl, rfl⟩ := hsame
        obtain rfl := Option.some.inj (hcfg.symm.trans hcfg')
        rw [Function.update_self, Function.update_self]
      · have hslot := fun heq => hsame (slot_injective hn hposition heq)
        have hkey : (k, cfg'.channel) ≠ (p, cfg.channel) := by
          intro heq
          obtain ⟨rfl, hchannel⟩ := Prod.mk.inj heq
          exact hsame ⟨rfl, channel_injective haccepted hcfg' hcfg hchannel⟩
        rw [Function.update_of_ne hslot, Function.update_of_ne hkey]
        exact h.slots k hk n cfg' hcfg'
  · have hidle : Slots.convert handles c (p, v) = c := by
      rw [Slots.convert, hnone]
    rw [hidle]
    exact h

theorem tracks_conversions {d : Device} (haccepted : Accepted cfgs)
    (hhandles : ∀ k, Started cfgs k (d.handles k) ∨ (d.handles k).transfer = none)
    (hpool : ∀ a, d.dmaBufferPool a = 0) (samples : List (Fin 3 × BitVec 16)) :
    Tracks cfgs d.handles (conversions d samples) := by
  have hstart : Tracks cfgs d.handles { dmaBufferPool := d.dmaBufferPool } :=
    ⟨fun k hk => ⟨rfl, hk.nonempty⟩, fun k _ n cfg _ => hpool _⟩
  rw [conversions]
  generalize ({ dmaBufferPool := d.dmaBufferPool } : Converters) = c at hstart ⊢
  induction samples generalizing c with
  | nil => exact hstart
  | cons sample samples ih => exact ih _ (hstart.convert haccepted hhandles sample)

end Conversions

/-! ## The instances -/

section Instances

variable {cfgs : List Config} {cfg : Config} {dmas : List DmaModel.Handle} {hal : Hal} {ready : Fin 3 → Bool} {i : Nat}

theorem totalDmaSlots_sizesOf (cfgs : List Config) : (sizesOf cfgs).totalDmaSlots = cfgs.length := by
  induction cfgs with
  | nil => rfl
  | cons cfg cfgs ih =>
    have hindex : ∀ k : Fin 3, k = 0 ∨ k = 1 ∨ k = 2 := by decide
    have hsum : (group index cfgs 0).length + (group index cfgs 1).length + (group index cfgs 2).length =
        cfgs.length := ih
    change (group index (cfg :: cfgs) 0).length + (group index (cfg :: cfgs) 1).length +
      (group index (cfg :: cfgs) 2).length = _
    rw [length_group_cons, length_group_cons, length_group_cons, List.length_cons]
    rcases hindex (index cfg) with h | h | h
    all_goals
      simp only [h, Fin.reduceEq, if_true, if_false]
      omega

theorem bufferSizes_eq (haccepted : Accepted cfgs) (hfew : cfgs.length ≤ maxInstances) :
    bufferSizes cfgs = .ok (sizesOf cfgs) := by
  have hsizes := calculateBufferSizes_eq (fun cfg hcfg => (haccepted.resolved cfg hcfg).1) {}
  simp only [Nat.zero_add] at hsizes
  have hfits : decide ((sizesOf cfgs).totalDmaSlots ≤ maxInstances) = true :=
    decide_eq_true ((totalDmaSlots_sizesOf cfgs).trans_le hfew)
  rw [bufferSizes, hsizes]
  change (require (decide ((sizesOf cfgs).totalDmaSlots ≤ maxInstances)) _ >>= fun _ => _) = _
  rw [hfits]
  rfl

theorem bufferSizeFor_peripheral (h : cfg.peripheral ≠ .auto) :
    (sizesOf cfgs).bufferSizeFor cfg.peripheral = (group index cfgs (index cfg)).length := by
  rw [index, ← bufferSizeFor_sizesOf, peripheralFromIndex_index h]

theorem getDmaSlot_rank (haccepted : Accepted cfgs) (hcfg : cfgs[i]? = some cfg) :
    (sizesOf cfgs).getDmaSlot cfg.peripheral (rank index cfgs i (index cfg)) =
      some ((sizesOf cfgs).bufferOffsetFor cfg.peripheral + rank index cfgs i (index cfg)) := by
  have hresolved := (haccepted.resolved cfg (List.mem_of_getElem? hcfg)).1
  have hrank : rank index cfgs i (index cfg) < (group index cfgs (index cfg)).length := rank_lt_length hcfg
  have hinside := part_inside (sizesOf cfgs) cfg.peripheral
  rw [bufferSizeFor_peripheral hresolved] at hinside
  rw [BufferSizes.getDmaSlot, bufferSizeFor_peripheral hresolved, if_neg (Nat.not_le.mpr hrank),
    if_neg (by omega)]

/-- The initialisation of accepted configurations. -/
theorem init_spec (haccepted : Accepted cfgs) (dmas : List DmaModel.Handle) (hal : Hal) :
    ∃ d ready, Init.init (sizesOf cfgs) cfgs dmas hal {} = (d, List.zipWith (fillInstance (sizesOf cfgs) ready) cfgs
        ((number index (fun _ => 0) cfgs).1.map some)) ∧
      (∀ k, (ready k = true → Started cfgs k (d.handles k)) ∧
        (ready k = false → (d.handles k).transfer = none) ∧
        (Succeeds cfgs dmas hal → 0 < (group index cfgs k).length → ready k = true)) ∧
      ∀ a, d.dmaBufferPool a = 0 := by
  have hresolved : ∀ cfg ∈ cfgs, isResolvedConfig cfg = true :=
    fun cfg hcfg => decide_eq_true (haccepted.resolved cfg hcfg)
  have hunresolved : cfgs.filter (fun cfg => !isResolvedConfig cfg) = [] := by
    refine List.filter_eq_nil_iff.mpr fun cfg hcfg => ?_
    rw [hresolved cfg hcfg]
    exact Bool.false_ne_true
  have hcounts : (number index (fun _ => 0) cfgs).2 = fun k => (group index cfgs k).length := by
    funext k
    rw [number_counts, Nat.zero_add]
  have hnodup : ([0, 1, 2] : List (Fin 3)).Nodup := by decide
  obtain ⟨hall, -, hpool⟩ := initPeripherals_spec haccepted dmas hnodup (fun _ => false) {} (fun _ => rfl)
    (fun _ _ => rfl) (rfl : initPeripherals (sizesOf cfgs) cfgs dmas hal (fun k => (group index cfgs k).length)
      [0, 1, 2] (fun _ => false) {} = _)
  have hmem : ∀ k : Fin 3, k ∈ [0, 1, 2] := by decide
  rw [Init.init, hunresolved, countChannels_eq hresolved, hcounts]
  exact ⟨_, _, rfl, fun k => hall k (hmem k), hpool⟩

/-- The instances of accepted configurations. -/
theorem instances_eq (cfgs : List Config) (ready : Fin 3 → Bool) :
    List.zipWith (fillInstance (sizesOf cfgs) ready) cfgs ((number index (fun _ => 0) cfgs).1.map some) =
      cfgs.mapIdx fun i cfg => fillInstance (sizesOf cfgs) ready cfg (some (rank index cfgs i (index cfg))) := by
  refine List.ext_getElem? fun i => ?_
  rw [List.getElem?_zipWith, List.getElem?_map, number_getElem?, List.getElem?_mapIdx]
  cases cfgs[i]? with
  | none => rfl
  | some cfg => exact congrArg (fun n => some (fillInstance _ ready cfg (some n))) (Nat.zero_add _)

/-- The slot of an instance is that of its rank. -/
theorem dmaSlot_eq (haccepted : Accepted cfgs) (hcfg : cfgs[i]? = some cfg) :
    (fillInstance (sizesOf cfgs) ready cfg (some (rank index cfgs i (index cfg)))).dmaSlot =
      if ready (index cfg) then
        some ((sizesOf cfgs).bufferOffsetFor cfg.peripheral + rank index cfgs i (index cfg)) else none := by
  rw [fillInstance, getDmaSlot_rank haccepted hcfg]
  rfl

/-- What is known of an instance that has a slot. -/
theorem of_dmaSlot (haccepted : Accepted cfgs) {x : Instance} {slot : Nat}
    (hx : (cfgs.mapIdx fun i cfg =>
      fillInstance (sizesOf cfgs) ready cfg (some (rank index cfgs i (index cfg))))[i]? = some x)
    (hslot : x.dmaSlot = some slot) :
    ∃ cfg, cfgs[i]? = some cfg ∧ ready (index cfg) = true ∧ x.resolution = cfg.resolution ∧
      cfg.peripheral = peripheralFromIndex (index cfg) ∧
      slot = (sizesOf cfgs).bufferOffsetFor (peripheralFromIndex (index cfg)) + rank index cfgs i (index cfg) := by
  rw [List.getElem?_mapIdx] at hx
  obtain ⟨cfg, hcfg, rfl⟩ := Option.map_eq_some_iff.mp hx
  have hresolved := (haccepted.resolved cfg (List.mem_of_getElem? hcfg)).1
  have hperipheral := (peripheralFromIndex_index hresolved).symm
  rw [dmaSlot_eq haccepted hcfg] at hslot
  split at hslot
  · next hready =>
    refine ⟨cfg, hcfg, hready, rfl, hperipheral, ?_⟩
    rw [index, ← hperipheral]
    exact (Option.some.inj hslot).symm
  · cases hslot

end Instances

section Slots

variable {cfgs : List Config} {dmas : List DmaModel.Handle} {hal : Hal} {ready : Fin 3 → Bool} {d : Device}

theorem slotsFollowRanks (haccepted : Accepted cfgs) (hstarted : ∀ k, ready k = true → Started cfgs k (d.handles k))
    (hstopped : ∀ k, ready k = false → (d.handles k).transfer = none) (hpool : ∀ a, d.dmaBufferPool a = 0) :
    SlotsFollowRanks cfgs (sizesOf cfgs) d (cfgs.mapIdx fun i cfg =>
      fillInstance (sizesOf cfgs) ready cfg (some (rank index cfgs i (index cfg)))) where
  count := List.length_mapIdx
  apart _ _ h := parts_apart (sizesOf cfgs) h
  inside := part_inside (sizesOf cfgs)
  distinct i j x y slot hx hy hslot hslot' := by
    obtain ⟨a, ha, -, -, -, hslotA⟩ := of_dmaSlot haccepted hx hslot
    obtain ⟨b, hb, -, -, -, hslotB⟩ := of_dmaSlot haccepted hy hslot'
    have hrankA : rank index cfgs i (index a) < (group index cfgs (index a)).length := rank_lt_length ha
    have hrankB : rank index cfgs j (index b) < (group index cfgs (index b)).length := rank_lt_length hb
    obtain ⟨hindex, hrank⟩ := slot_injective hrankA hrankB (hslotA.symm.trans hslotB)
    exact rank_injective ha hb hindex hrank
  ranked i cfg x slot hcfg hx hslot := by
    obtain ⟨a, ha, hready, -, hperipheral, hslotA⟩ := of_dmaSlot haccepted hx hslot
    obtain rfl := Option.some.inj (hcfg.symm.trans ha)
    have hrank : rank index cfgs i (index cfg) < (group index cfgs (index cfg)).length := rank_lt_length hcfg
    refine ⟨rank index cfgs i (index cfg), ?_, ?_, ?_, ?_⟩
    · rwa [hperipheral, bufferSizeFor_sizesOf]
    · rwa [hperipheral]
    · exact regularRank_val (hrank.trans_le (haccepted.few _))
    · exact (hstarted _ hready).sequence _ cfg (group_getElem?_rank hcfg)
  reads samples i cfg x hcfg hx hsome := by
    obtain ⟨slot, hslot⟩ := Option.ne_none_iff_exists'.mp hsome
    obtain ⟨a, ha, hready, hresolution, -, hslotA⟩ := of_dmaSlot haccepted hx hslot
    obtain rfl := Option.some.inj (hcfg.symm.trans ha)
    have hhandles : ∀ k, Started cfgs k (d.handles k) ∨ (d.handles k).transfer = none := by
      intro k
      cases hk : ready k with
      | true => exact .inl (hstarted k hk)
      | false => exact .inr (hstopped k hk)
    have htracks := tracks_conversions haccepted hhandles hpool samples
    have hholds := htracks.slots _ (hstarted _ hready) _ cfg (group_getElem?_rank hcfg)
    rw [← hslotA] at hholds
    rw [getRaw, hslot, hresolution]
    dsimp only
    rw [hholds]
    rfl

end Slots

/-- **Slots.** Each instance of an accepted list has the slot of its rank, and reads what its
channel was converted to. -/
theorem slots_follow_ranks {hasAdc3 : Bool} {number : Numbers} {entries : List Entry} {cfgs : List Config}
    (h : build hasAdc3 number entries = .ok cfgs) (dmas : List DmaModel.Handle) (hal : Hal) :
    ∃ sizes, bufferSizes cfgs = .ok sizes ∧
      SlotsFollowRanks cfgs sizes (Init.init sizes cfgs dmas hal {}).1 (Init.init sizes cfgs dmas hal {}).2 ∧
      (Succeeds cfgs dmas hal → ∀ x ∈ (Init.init sizes cfgs dmas hal {}).2, x.dmaSlot ≠ none) := by
  obtain ⟨haccepted, -, hfew⟩ := build_ok h
  obtain ⟨d, ready, hinit, hall, hpool⟩ := init_spec haccepted dmas hal
  refine ⟨sizesOf cfgs, bufferSizes_eq haccepted hfew, ?_⟩
  rw [hinit, instances_eq]
  refine ⟨slotsFollowRanks haccepted (fun k => (hall k).1) (fun k => (hall k).2.1) hpool, ?_⟩
  intro hsucceeds x hx
  obtain ⟨i, hi⟩ := List.mem_iff_getElem?.mp hx
  rw [List.getElem?_mapIdx] at hi
  obtain ⟨cfg, hcfg, rfl⟩ := Option.map_eq_some_iff.mp hi
  have hrank : rank index cfgs i (index cfg) < (group index cfgs (index cfg)).length := rank_lt_length hcfg
  rw [dmaSlot_eq haccepted hcfg, if_pos ((hall _).2.2 hsucceeds (Nat.zero_lt_of_lt hrank))]
  exact Option.some_ne_none _

/-- Two channels of one converter, one of them chosen, and one of another between them. -/
def mixed : List Entry :=
  [{ gpioIdx := 0, pin := pa 0 }, { gpioIdx := 1, pin := pc 0 },
   { gpioIdx := 2, pin := pa 3, peripheral := .adc1, channel := .ch 15 }]

def mixedCfgs : List Config :=
  [⟨0, .adc1, .ch 16, .bits12, .cycles8p5, .div1, 0, 1⟩, ⟨1, .adc3, .ch 10, .bits12, .cycles8p5, .div1, 0, 3⟩,
   ⟨2, .adc1, .ch 15, .bits12, .cycles8p5, .div1, 0, 1⟩]

def mixedDmas : List DmaModel.Handle := [{ init := { request := 3 } }, { init := { request := 1 } }]

def working : Hal := ⟨fun _ => true, fun _ _ => true, fun _ => true⟩

theorem slots_follow_ranks_mixed : ∃ sizes, bufferSizes mixedCfgs = .ok sizes ∧
    SlotsFollowRanks mixedCfgs sizes (Init.init sizes mixedCfgs mixedDmas working {}).1
      (Init.init sizes mixedCfgs mixedDmas working {}).2 ∧
    ∀ x ∈ (Init.init sizes mixedCfgs mixedDmas working {}).2, x.dmaSlot ≠ none := by
  have hbuild : build true DmaModel.mockNumbers mixed = .ok mixedCfgs := by rfl
  have hsucceeds : Succeeds mixedCfgs mixedDmas working :=
    ⟨fun _ => rfl, fun _ _ => rfl, fun _ => rfl, by decide⟩
  obtain ⟨sizes, hsizes, hslots, hall⟩ := slots_follow_ranks hbuild mixedDmas working
  exact ⟨sizes, hsizes, hslots, hall hsucceeds⟩

end StLib.Adc.Slots
