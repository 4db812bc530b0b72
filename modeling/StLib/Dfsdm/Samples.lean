import StLib.Base.Runs
import StLib.Dfsdm.Build

/-! # Samples of the filters without DMA

The instances that `Init::init` makes and the two ends of conversion of `handle_irq`. The
callbacks and the other flags of an interrupt are left out. -/
namespace StLib.Dfsdm.Samples

open StLib.Base.Runs StLib.Dfsdm.Model StLib.Dfsdm.Build

/-- `buffer` is a position in the buffer of the filter. -/
structure Instance where
  filter : Fin 4
  channel : Fin 8
  dmaEnable : Bool
  buffer : Nat
  lengthBuffer : Nat

def Config.toInstance (cfg : Config) : Instance where
  filter := cfg.filter
  channel := cfg.channel
  dmaEnable := cfg.dmaEnable
  buffer := cfg.bufferPosIni
  lengthBuffer := cfg.bufferSize

/-- `channel_instances` after the loop of `Init::init`. -/
def channelInstances : List Config → (Fin 8 → Option Instance) → Fin 8 → Option Instance
  | [], instances => instances
  | cfg :: rest, instances =>
    channelInstances rest (Function.update instances cfg.channel (some (Config.toInstance cfg)))

/-- A store to the buffer of a filter. -/
structure Write where
  channel : Fin 8
  filter : Fin 4
  position : Nat
  data : Word

structure State where
  idxFilter : Fin 4 → Nat := fun _ => 0
  writes : List Write := []
  dividedByZero : Bool := false

/-- The channel in a data register. -/
def dataChannel (data : Word) : Fin 8 := Fin.ofNat 8 (data &&& 0x7).toNat

variable (instances : Fin 8 → Option Instance)

/-- What `handle_irq` does with the data of an end of conversion. -/
def endOfConversion (data : Word) (s : State) : State :=
  match instances (dataChannel data) with
  | none => s
  | some inst =>
    if inst.dmaEnable then s
    else
      { idxFilter := Function.update s.idxFilter inst.filter
          ((s.idxFilter inst.filter + 1) % inst.lengthBuffer)
        writes := s.writes ++
          [{ channel := inst.channel
             filter := inst.filter
             position := inst.buffer + s.idxFilter inst.filter
             data }]
        dividedByZero := s.dividedByZero || inst.lengthBuffer == 0 }

/-- The data registers of the filter where the interrupt has the flags of them. -/
structure Interrupt where
  filter : Fin 4
  regular : Option Word
  injected : Option Word

def handleIrq (x : Interrupt) (s : State) : State :=
  let s :=
    match x.regular with
    | none => s
    | some data => endOfConversion instances data s
  match x.injected with
  | none => s
  | some data => endOfConversion instances data s

abbrev Step (s : State) (x : Interrupt) (t : State) : Prop := t = handleIrq instances x s

/-! ## What is claimed -/

/-- The `k`-th sample of a channel is in its slice, `k` positions on, around the slice. -/
structure StoredRight (cfgs : List Config) (s : State) : Prop where
  noDivision : s.dividedByZero = false
  inSlice : ∀ w ∈ s.writes, ∀ cfg ∈ cfgs, cfg.channel = w.channel → w.filter = cfg.filter ∧
    cfg.bufferPosIni ≤ w.position ∧ w.position < cfg.bufferPosIni + cfg.bufferSize
  cyclic : ∀ ws w ws', s.writes = ws ++ w :: ws' → ∀ cfg ∈ cfgs, cfg.channel = w.channel →
    w.position = cfg.bufferPosIni +
      (ws.countP fun v => v.channel = w.channel) % cfg.bufferSize

/-- The claim for what a list is built into. -/
def Right (cfgs : List Config) : Prop :=
  ∀ ls s, Run (Step (channelInstances cfgs fun _ => none)) (fun _ _ => True) {} ls s →
    StoredRight cfgs s

/-- Without DMA, no buffer is empty, and one of more than one sample is of the only channel
of its filter. -/
def Meets (es : List Entry) : Prop :=
  ∀ e ∈ es, e.configFilter.dma = false → e.bufferSize ≠ 0 ∧
    (e.bufferSize ≠ 1 → ∀ e' ∈ es, e'.filter = e.filter → e'.channel = e.channel)

/-! ## Instances -/

variable {instances}
variable {es : List Entry} {e e' : Entry} {cfgs : List Config} {s t : State}

theorem channelInstances_apply : ∀ (cfgs : List Config) (instances : Fin 8 → Option Instance)
    (c : Fin 8), (cfgs.map Config.channel).Nodup →
      channelInstances cfgs instances c =
        ((cfgs.find? fun cfg => cfg.channel = c).map Config.toInstance).or (instances c)
  | [], _, _, _ => rfl
  | cfg :: rest, instances, c, hnodup => by
    rw [List.map_cons] at hnodup
    obtain ⟨hfresh, hnodup⟩ := List.nodup_cons.mp hnodup
    rw [channelInstances, channelInstances_apply rest _ c hnodup]
    by_cases hc : cfg.channel = c
    · subst hc
      have hnone : (rest.find? fun x => x.channel = cfg.channel) = none := by
        rw [List.find?_eq_none]
        exact fun x hx hxc => hfresh (List.mem_map.mpr ⟨x, hx, of_decide_eq_true hxc⟩)
      rw [hnone, List.find?_cons_of_pos (by simp), Function.update_self]
      rfl
    · rw [List.find?_cons_of_neg (by simpa using hc), Function.update_of_ne (Ne.symm hc)]

theorem nodup_channels (h : build es = some cfgs) : (cfgs.map Config.channel).Nodup := by
  rw [map_build h Config.channel Entry.channel fun e c hd => hd.channel]
  exact (of_build h).1.1.nodup

/-- The instance of a channel in the list. -/
theorem instance_of_mem (h : build es = some cfgs) {cfg : Config} (hc : cfg ∈ cfgs) :
    channelInstances cfgs (fun _ => none) cfg.channel = some (Config.toInstance cfg) := by
  rw [channelInstances_apply _ _ _ (nodup_channels h)]
  cases hfind : cfgs.find? fun x => x.channel = cfg.channel with
  | none =>
    exact absurd (decide_eq_true rfl) (List.find?_eq_none.mp hfind cfg hc)
  | some x =>
    have hx := List.find?_some hfind
    have hsame : x = cfg := List.inj_on_of_nodup_map (nodup_channels h)
      (List.mem_of_find?_eq_some hfind) hc (of_decide_eq_true hx)
    rw [hsame]
    rfl

theorem mem_of_instance (h : build es = some cfgs) {c : Fin 8} {inst : Instance}
    (hi : channelInstances cfgs (fun _ => none) c = some inst) :
    ∃ cfg ∈ cfgs, cfg.channel = c ∧ inst = Config.toInstance cfg := by
  rw [channelInstances_apply _ _ _ (nodup_channels h), Option.or_none] at hi
  obtain ⟨cfg, hfind, rfl⟩ := Option.map_eq_some_iff.mp hi
  have hc := List.find?_some hfind
  exact ⟨cfg, List.mem_of_find?_eq_some hfind, of_decide_eq_true hc, rfl⟩

/-! ## One sample -/

/-- The samples of a channel so far. -/
def samples (s : State) (c : Fin 8) : Nat := s.writes.countP fun v => v.channel = c

/-- What every sample keeps: the index of a filter is where each of its channels goes on. -/
structure Kept (cfgs : List Config) (s : State) : Prop where
  stored : StoredRight cfgs s
  index : ∀ cfg ∈ cfgs, cfg.dmaEnable = false →
    s.idxFilter cfg.filter = samples s cfg.channel % cfg.bufferSize

/-- The condition, of what the list is built into. -/
def Fair (cfgs : List Config) : Prop :=
  ∀ cfg ∈ cfgs, cfg.dmaEnable = false → cfg.bufferSize ≠ 0 ∧
    (cfg.bufferSize ≠ 1 → ∀ cfg' ∈ cfgs, cfg'.filter = cfg.filter → cfg' = cfg)

theorem eq_of_channel (hnodup : (cfgs.map Config.channel).Nodup) {cfg cfg' : Config}
    (hc : cfg ∈ cfgs) (hc' : cfg' ∈ cfgs) (h : cfg.channel = cfg'.channel) : cfg = cfg' :=
  List.inj_on_of_nodup_map hnodup hc hc' h

/-- A split of a list with one more element is one of the list, or at its end. -/
theorem split_concat {α : Type*} {l ws ws' : List α} {w v : α} (h : l ++ [w] = ws ++ v :: ws') :
    l = ws ∧ w = v ∨ ∃ rest, l = ws ++ v :: rest := by
  rcases List.eq_nil_or_concat ws' with rfl | ⟨rest, x, rfl⟩
  · obtain ⟨hl, hw⟩ := List.append_inj' h rfl
    exact .inl ⟨hl, List.singleton_inj.mp hw⟩
  · rw [List.concat_eq_append, ← List.cons_append, ← List.append_assoc] at h
    exact .inr ⟨rest, (List.append_inj' h rfl).1⟩

/-- A sample that is stored at the next position of its channel. -/
theorem storedRight_concat (hnodup : (cfgs.map Config.channel).Nodup) (h : StoredRight cfgs s)
    {cfg : Config} (hcfg : cfg ∈ cfgs) (hsize : cfg.bufferSize ≠ 0) {w : Write}
    (hchannel : w.channel = cfg.channel) (hfilter : w.filter = cfg.filter)
    (hposition : w.position = cfg.bufferPosIni + samples s cfg.channel % cfg.bufferSize)
    (ht : t.writes = s.writes ++ [w]) (hdivided : t.dividedByZero = false) :
    StoredRight cfgs t where
  noDivision := hdivided
  inSlice v hv cfg' hcfg' hc := by
    rw [ht] at hv
    rcases List.mem_append.mp hv with hold | hnew
    · exact h.inSlice v hold cfg' hcfg' hc
    · obtain rfl := List.mem_singleton.mp hnew
      obtain rfl := eq_of_channel hnodup hcfg' hcfg (hc.trans hchannel)
      have hlt := Nat.mod_lt (samples s cfg'.channel) (Nat.pos_of_ne_zero hsize)
      refine ⟨hfilter, ?_, ?_⟩
      · omega
      · omega
  cyclic ws v ws' hsplit cfg' hcfg' hc := by
    rw [ht] at hsplit
    rcases split_concat hsplit with ⟨hws, rfl⟩ | ⟨rest, hold⟩
    · obtain rfl := eq_of_channel hnodup hcfg' hcfg (hc.trans hchannel)
      rw [hposition, ← hws, hchannel]
      rfl
    · exact h.cyclic ws v rest hold cfg' hcfg' hc

theorem countP_concat (ws : List Write) (w : Write) (c : Fin 8) :
    ((ws ++ [w]).countP fun v => v.channel = c) =
      (ws.countP fun v => v.channel = c) + if w.channel = c then 1 else 0 := by
  rw [List.countP_append, List.countP_singleton]
  simp only [decide_eq_true_eq]

/-- **One sample.** -/
theorem kept_endOfConversion (h : build es = some cfgs) (hfair : Fair cfgs) (hk : Kept cfgs s)
    (data : Word) :
    Kept cfgs (endOfConversion (channelInstances cfgs fun _ => none) data s) := by
  have hnodup := nodup_channels h
  unfold endOfConversion
  split
  · exact hk
  · next inst hinst =>
    obtain ⟨cfg, hcfg, -, rfl⟩ := mem_of_instance h hinst
    split
    · exact hk
    · next hnot =>
      have hdma : cfg.dmaEnable = false := Bool.eq_false_of_not_eq_true hnot
      obtain ⟨hsize, halone⟩ := hfair cfg hcfg hdma
      have hidx := hk.index cfg hcfg hdma
      constructor
      · apply storedRight_concat hnodup hk.stored hcfg hsize
          (w := ⟨cfg.channel, cfg.filter, cfg.bufferPosIni + s.idxFilter cfg.filter, data⟩) rfl rfl
        · rw [hidx]
        · rfl
        · show (s.dividedByZero || cfg.bufferSize == 0) = false
          rw [hk.stored.noDivision, Bool.false_or]
          exact beq_eq_false_iff_ne.mpr hsize
      · intro cfg' hcfg' hdma'
        show Function.update s.idxFilter cfg.filter ((s.idxFilter cfg.filter + 1) % cfg.bufferSize)
          cfg'.filter = (s.writes ++ [(⟨cfg.channel, cfg.filter,
            cfg.bufferPosIni + s.idxFilter cfg.filter, data⟩ : Write)]).countP
              (fun v => v.channel = cfg'.channel) % cfg'.bufferSize
        rw [countP_concat]
        by_cases hf : cfg'.filter = cfg.filter
        · rw [hf, Function.update_self]
          by_cases hsame : cfg' = cfg
          · rw [hsame, if_pos rfl, hidx, Nat.mod_add_mod]
            rfl
          · -- the channels of a shared filter have one sample each
            have hone : cfg.bufferSize = 1 := by
              by_contra hne
              exact hsame (halone hne cfg' hcfg' hf)
            have hone' : cfg'.bufferSize = 1 := by
              by_contra hne
              exact hsame ((hfair cfg' hcfg' hdma').2 hne cfg hcfg hf.symm).symm
            rw [hone, hone', Nat.mod_one, Nat.mod_one]
        · have hne : cfg.channel ≠ cfg'.channel := fun hc =>
            hf (congrArg Config.filter (eq_of_channel hnodup hcfg hcfg' hc).symm)
          rw [Function.update_of_ne hf, if_neg hne, Nat.add_zero]
          exact hk.index cfg' hcfg' hdma'

theorem kept_handleIrq (h : build es = some cfgs) (hfair : Fair cfgs) (hk : Kept cfgs s)
    (x : Interrupt) : Kept cfgs (handleIrq (channelInstances cfgs fun _ => none) x s) := by
  unfold handleIrq
  cases x.regular with
  | none =>
    cases x.injected with
    | none => exact hk
    | some data => exact kept_endOfConversion h hfair hk data
  | some data =>
    have hregular := kept_endOfConversion h hfair hk data
    cases x.injected with
    | none => exact hregular
    | some data' => exact kept_endOfConversion h hfair hregular data'

theorem kept_initial : Kept cfgs {} where
  stored := ⟨rfl, nofun, fun ws w ws' hsplit => by simp at hsplit⟩
  index cfg _ _ := (Nat.zero_mod _).symm

/-! ## Every run -/

theorem fair_iff (h : build es = some cfgs) : Fair cfgs ↔ Meets es := by
  have hnodup := nodup_channels h
  constructor
  · intro hfair e he hdma
    obtain ⟨cfg, hcfg, hd⟩ := exists_describes h he
    obtain ⟨hsize, halone⟩ := hfair cfg hcfg (hd.dmaEnable.trans hdma)
    rw [hd.bufferSize] at hsize halone
    refine ⟨hsize, fun hone e' he' hf => ?_⟩
    obtain ⟨cfg', hcfg', hd'⟩ := exists_describes h he'
    have hsame := halone hone cfg' hcfg' (hd'.filter.trans (hf.trans hd.filter.symm))
    rw [← hd'.channel, ← hd.channel, hsame]
  · intro hmeets cfg hcfg hdma
    obtain ⟨e, he, hd⟩ := describes_of_mem h hcfg
    obtain ⟨hsize, halone⟩ := hmeets e he (hd.dmaEnable.symm.trans hdma)
    rw [hd.bufferSize]
    refine ⟨hsize, fun hone cfg' hcfg' hf => ?_⟩
    obtain ⟨e', he', hd'⟩ := describes_of_mem h hcfg'
    have hsame := halone hone e' he' (hd'.filter.symm.trans (hf.trans hd.filter))
    exact eq_of_channel hnodup hcfg' hcfg (hd'.channel.trans (hsame.trans hd.channel.symm))

/-- A data register with a channel. -/
def sample (c : Fin 8) : Word := BitVec.ofNat 32 c

theorem dataChannel_sample (c : Fin 8) : dataChannel (sample c) = c := by
  revert c
  decide

/-- An end of conversion of a channel without DMA. -/
theorem endOfConversion_sample (h : build es = some cfgs) {cfg : Config} (hcfg : cfg ∈ cfgs)
    (hdma : cfg.dmaEnable = false) (s : State) :
    endOfConversion (channelInstances cfgs fun _ => none) (sample cfg.channel) s =
      { idxFilter := Function.update s.idxFilter cfg.filter
          ((s.idxFilter cfg.filter + 1) % cfg.bufferSize)
        writes := s.writes ++ [⟨cfg.channel, cfg.filter,
          cfg.bufferPosIni + s.idxFilter cfg.filter, sample cfg.channel⟩]
        dividedByZero := s.dividedByZero || cfg.bufferSize == 0 } := by
  unfold endOfConversion
  rw [dataChannel_sample, instance_of_mem h hcfg]
  show (if cfg.dmaEnable = true then s else _) = _
  rw [hdma]
  rfl

/-- One sample shows an empty buffer, and two show a shared index. -/
theorem fair_of_right (h : build es = some cfgs) (hright : Right cfgs) : Fair cfgs := by
  intro cfg hcfg hdma
  have hfirst := hright [⟨cfg.filter, some (sample cfg.channel), none⟩] _ (.single trivial rfl)
  constructor
  · intro hzero
    have hdivided : (handleIrq (channelInstances cfgs fun _ => none)
        ⟨cfg.filter, some (sample cfg.channel), none⟩ {}).dividedByZero = true := by
      show (endOfConversion _ (sample cfg.channel) {}).dividedByZero = true
      rw [endOfConversion_sample h hcfg hdma, hzero]
      rfl
    rw [hfirst.noDivision] at hdivided
    cases hdivided
  · intro hone cfg' hcfg' hf
    by_contra hne
    have hdma' : cfg'.dmaEnable = false := by
      obtain ⟨e, he, hd⟩ := describes_of_mem h hcfg
      obtain ⟨e', he', hd'⟩ := describes_of_mem h hcfg'
      have hshared := (of_build h).1.1.agree e' he' e he
        (hd'.filter.symm.trans (hf.trans hd.filter))
      have hdmas : e'.configFilter.dma = e.configFilter.dma :=
        congrArg (fun x => x.2.2.2.2.2) hshared
      rw [hd'.dmaEnable, hdmas, ← hd.dmaEnable, hdma]
    have hchannel : cfg.channel ≠ cfg'.channel := fun hc =>
      hne (eq_of_channel (nodup_channels h) hcfg' hcfg hc.symm)
    have hrun := hright [⟨cfg.filter, some (sample cfg.channel), some (sample cfg'.channel)⟩] _
      (.single trivial rfl)
    have hwrites : (handleIrq (channelInstances cfgs fun _ => none)
        ⟨cfg.filter, some (sample cfg.channel), some (sample cfg'.channel)⟩ {}).writes =
          [⟨cfg.channel, cfg.filter, cfg.bufferPosIni, sample cfg.channel⟩] ++
            ⟨cfg'.channel, cfg'.filter, cfg'.bufferPosIni + (0 + 1) % cfg.bufferSize,
              sample cfg'.channel⟩ :: [] := by
      show (endOfConversion _ (sample cfg'.channel)
        (endOfConversion _ (sample cfg.channel) {})).writes = _
      rw [endOfConversion_sample h hcfg hdma, endOfConversion_sample h hcfg' hdma', hf]
      simp
    have hposition := hrun.cyclic _ _ _ hwrites cfg' hcfg' rfl
    have hcount : ([⟨cfg.channel, cfg.filter, cfg.bufferPosIni, sample cfg.channel⟩] :
        List Write).countP (fun v => v.channel = cfg'.channel) = 0 := by
      simp [hchannel]
    rw [hcount, Nat.zero_mod] at hposition
    have hdivides : (0 + 1) % cfg.bufferSize = 0 := by
      have hcancel := Nat.add_left_cancel hposition
      exact hcancel
    exact hone (Nat.dvd_one.mp (Nat.dvd_of_mod_eq_zero hdivides))

/-- **Samples without DMA.** Every run stores its samples right exactly when the buffers
without DMA are not empty and none of more than one sample shares its filter. -/
theorem samples_right_iff (h : build es = some cfgs) : Right cfgs ↔ Meets es := by
  rw [← fair_iff h]
  constructor
  · exact fair_of_right h
  · intro hfair ls s hrun
    have hk : Kept cfgs s := hrun.invariant kept_initial fun s x t hk _ ht =>
      ht ▸ kept_handleIrq h hfair hk x
    exact hk.stored

/-- Two injected channels of one filter with two samples each. -/
def sharedFilter : List Entry :=
  [{ configFilter := { typeConv := .injected }, channel := 0, bufferSize := 2 },
    { configFilter := { typeConv := .injected }, channel := 1, bufferSize := 2 }]

theorem shared_index :
    ¬∀ es cfgs, build es = some cfgs → Right cfgs := by
  intro hall
  obtain ⟨cfgs, h⟩ := Option.ne_none_iff_exists'.mp (show build sharedFilter ≠ none by decide)
  have hmeets := (fair_iff h).mp (fair_of_right h (hall sharedFilter cfgs h))
  exact absurd (hmeets _ (.head _) rfl) (by decide)

theorem samples_right_iff_shared :
    ∃ cfgs, build sharedFilter = some cfgs ∧ (Right cfgs ↔ Meets sharedFilter) := by
  obtain ⟨cfgs, h⟩ := Option.ne_none_iff_exists'.mp (show build sharedFilter ≠ none by decide)
  exact ⟨cfgs, h, samples_right_iff h⟩

end StLib.Dfsdm.Samples
