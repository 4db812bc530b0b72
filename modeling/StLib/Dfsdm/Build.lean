import Mathlib
import StLib.Dfsdm.Model

/-! # What `build` accepts and what it returns -/
namespace StLib.Dfsdm.Build

open StLib.Base.RegisterBits StLib.Dfsdm.Model

/-! ## The first loop -/

/-- What the channels of a filter must have in common. -/
def Entry.shared (e : Entry) : Word × Word × Word × Word × Word × Bool :=
  (e.config.initDataFilter.fltcr1, e.config.initDataFilter.fltcr2 &&& 0xFF,
    e.config.initDataFilter.fltfcr, e.config.initDataFilter.fltawltr,
    e.config.initDataFilter.fltawhtr, e.config.dmaEnable)

/-- The channels of a filter, in the order of the list. -/
def group (es : List Entry) (f : Fin 4) : List Entry := es.filter fun e => e.filter = f

/-- All the channels differ, and those of a filter agree. -/
structure Accepts (es : List Entry) : Prop where
  nodup : (es.map Entry.channel).Nodup
  agree : ∀ e ∈ es, ∀ e' ∈ es, e.filter = e'.filter → Entry.shared e = Entry.shared e'

/-- The union of registers. -/
def union : List Word → Word
  | [] => 0
  | x :: rest => x ||| union rest

/-- A configuration as the entry gives it, but for the masks of its channels. -/
structure Like (e : Entry) (c : Config) : Prop where
  fields : c = e.config.copyMasks c
  enables : c.initDataFilter.fltcr2 &&& 0xFF = e.config.initDataFilter.fltcr2 &&& 0xFF

/-- The masks of a configuration are those of a list of entries. -/
structure HasMasks (c : Config) (es : List Entry) : Prop where
  fltjchgr : c.initDataFilter.fltjchgr = union (es.map fun e => e.config.initDataFilter.fltjchgr)
  fltcr2 : c.initDataFilter.fltcr2 = union (es.map fun e => e.config.initDataFilter.fltcr2)

/-- The arrays after the entries `es`. Of a filter with more than one channel the first
configuration is not the last one, which is the one that is shared with. -/
structure Built (es : List Entry) (b : Builder) : Prop where
  i : b.i = es.length
  accepts : Accepts es
  channelsUsed : ∀ c, b.channelsUsed c = true ↔ c ∈ es.map Entry.channel
  channelOrder : ∀ c i, b.channelOrder c = some i ↔ (es.map Entry.channel)[i]? = some c
  like : ∀ i e, es[i]? = some e → Like e (b.cfgs i)
  unused : ∀ f, b.filtersUsed f = none ↔ group es f = []
  last : ∀ f p, b.filtersUsed f = some p → ∃ e, es[p]? = some e ∧ e.filter = f ∧
    ((group es f).length = 1 ↔ es.findIdx? (fun e => e.filter = f) = some p)
  first : ∀ f i, es.findIdx? (fun e => e.filter = f) = some i →
    HasMasks (b.cfgs i) ((group es f).take 2)

variable {es : List Entry} {e : Entry} {b : Builder} {f : Fin 4}

theorem group_append (es : List Entry) (e : Entry) (f : Fin 4) :
    group (es ++ [e]) f = if e.filter = f then group es f ++ [e] else group es f := by
  unfold group
  rw [List.filter_append]
  by_cases h : e.filter = f
  · simp [h]
  · simp [h]

theorem group_eq_nil_iff : group es f = [] ↔ es.findIdx? (fun e => e.filter = f) = none := by
  simp [group, List.findIdx?_eq_none_iff]

theorem findIdx?_append (es : List Entry) (e : Entry) (f : Fin 4) :
    (es ++ [e]).findIdx? (fun e => e.filter = f) =
      (es.findIdx? fun e => e.filter = f).or (if e.filter = f then some es.length else none) := by
  rw [List.findIdx?_append]
  by_cases h : e.filter = f
  · simp [h]
  · simp [h]

theorem findIdx?_lt {i : Nat} (h : es.findIdx? (fun e => e.filter = f) = some i) :
    i < es.length := by
  obtain ⟨hlt, -⟩ := List.findIdx?_eq_some_iff_getElem.mp h
  exact hlt

/-! ### The registers that are compared -/

theorem agrees_iff {c : Config} {e' : Entry} (h : Like e c) :
    c.agrees e'.config = true ↔ Entry.shared e = Entry.shared e' := by
  unfold Config.agrees Entry.shared
  simp only [Bool.and_eq_true, decide_eq_true_eq, Prod.mk.injEq, and_assoc]
  rw [h.enables, h.fields]
  exact Iff.rfl

theorem like_config (e : Entry) : Like e e.config := ⟨rfl, rfl⟩

/-- Sharing with a channel that agrees leaves the enables. -/
theorem enables_share {c : Config} {e' : Entry} (h : Like e c)
    (ha : Entry.shared e = Entry.shared e') :
    (c.share e'.config).initDataFilter.fltcr2 &&& 0xFF =
      e.config.initDataFilter.fltcr2 &&& 0xFF := by
  have he : e.config.initDataFilter.fltcr2 &&& 0xFF = e'.config.initDataFilter.fltcr2 &&& 0xFF :=
    congrArg (fun x => x.2.1) ha
  show (c.initDataFilter.fltcr2 ||| e'.config.initDataFilter.fltcr2) &&& 0xFF = _
  rw [BitVec.and_or_distrib_right, h.enables, ← he]
  exact BitVec.or_self

theorem like_share {c : Config} {e' : Entry} (h : Like e c)
    (ha : Entry.shared e = Entry.shared e') : Like e (c.share e'.config) where
  fields := by
    have hc := h.fields
    rw [hc]
    rfl
  enables := enables_share h ha

theorem like_copyMasks {c : Config} {e' : Entry} (h : Like e c)
    (ha : Entry.shared e = Entry.shared e') :
    Like e' (e'.config.copyMasks (c.share e'.config)) where
  fields := rfl
  enables := (enables_share h ha).trans (congrArg (fun x => x.2.1) ha)

theorem union_append (l : List Word) (x : Word) : union (l ++ [x]) = union l ||| x := by
  induction l with
  | nil => simp [union]
  | cons y l ih => rw [List.cons_append, union, ih, union, BitVec.or_assoc]

theorem hasMasks_share {c : Config} (h : HasMasks c es) : HasMasks (c.share e.config) (es ++ [e]) where
  fltjchgr := by
    rw [List.map_append, List.map_singleton, union_append, ← h.fltjchgr]
    rfl
  fltcr2 := by
    rw [List.map_append, List.map_singleton, union_append, ← h.fltcr2]
    rfl

theorem hasMasks_config (e : Entry) : HasMasks e.config [e] := by
  constructor
  · simp [union]
  · simp [union]

/-! ### One entry -/

theorem accepts_append (h : Accepts es) :
    Accepts (es ++ [e]) ↔ e.channel ∉ es.map Entry.channel ∧
      ∀ e' ∈ es, e'.filter = e.filter → Entry.shared e' = Entry.shared e := by
  constructor
  · intro h'
    constructor
    · have hnodup := h'.nodup
      rw [List.map_append, List.map_singleton] at hnodup
      exact fun hmem => (List.nodup_append.mp hnodup).2.2 _ hmem _ (List.mem_singleton_self _) rfl
    · intro e' he'
      exact h'.agree e' (List.mem_append_left _ he') e
        (List.mem_append_right _ (List.mem_singleton_self e))
  · rintro ⟨hchannel, hshared⟩
    constructor
    · rw [List.map_append, List.map_singleton, ← List.concat_eq_append]
      exact List.Nodup.concat hchannel h.nodup
    · intro a ha a' ha' hf
      rcases List.mem_append.mp ha with hold | hlast
      · rcases List.mem_append.mp ha' with hold' | hlast'
        · exact h.agree a hold a' hold' hf
        · rw [List.mem_singleton.mp hlast'] at hf ⊢
          exact hshared a hold hf
      · rw [List.mem_singleton.mp hlast] at hf ⊢
        rcases List.mem_append.mp ha' with hold' | hlast'
        · exact (hshared a' hold' hf.symm).symm
        · rw [List.mem_singleton.mp hlast']

/-- The arrays other than the configurations, after one more entry. -/
theorem built_next {cfgs : Nat → Config} (h : Built es b) (ha : Accepts (es ++ [e]))
    (hlike : ∀ i e', es[i]? = some e' → Like e' (cfgs i)) (hnew : Like e (cfgs es.length))
    (hfirst : ∀ f i, (es ++ [e]).findIdx? (fun e => e.filter = f) = some i →
      HasMasks (cfgs i) ((group (es ++ [e]) f).take 2)) :
    Built (es ++ [e])
      { i := b.i + 1
        cfgs
        channelsUsed := Function.update b.channelsUsed e.channel true
        filtersUsed := Function.update b.filtersUsed e.filter (some b.i)
        channelOrder := Function.update b.channelOrder e.channel (some b.i) } where
  i := by simp [h.i]
  accepts := ha
  channelsUsed c := by
    by_cases hc : c = e.channel
    · simp [hc]
    · simp only [Function.update_of_ne hc, List.map_append, List.map_singleton, List.mem_append,
        List.mem_singleton, hc, or_false]
      exact h.channelsUsed c
  channelOrder c i := by
    have hlength : (es.map Entry.channel).length = es.length := List.length_map ..
    obtain ⟨hfresh, -⟩ := (accepts_append h.accepts).mp ha
    rw [List.map_append, List.map_singleton]
    dsimp only
    by_cases hc : c = e.channel
    · subst hc
      rw [Function.update_self, h.i, Option.some.injEq]
      constructor
      · rintro rfl
        simp
      · intro hi
        rcases Nat.lt_or_ge i es.length with hlt | hge
        · rw [List.getElem?_append_left (by omega)] at hi
          exact absurd (List.mem_of_getElem? hi) hfresh
        · rw [List.getElem?_append_right (by omega)] at hi
          have := (List.getElem?_eq_some_iff.mp hi).1
          rw [List.length_singleton] at this
          omega
    · rw [Function.update_of_ne hc, h.channelOrder]
      rcases Nat.lt_or_ge i es.length with hlt | hge
      · rw [List.getElem?_append_left (by omega)]
      · rw [List.getElem?_append_right (by omega), List.getElem?_eq_none (by omega)]
        refine iff_of_false nofun fun hi => hc ?_
        exact (List.mem_singleton.mp (List.mem_of_getElem? hi))
  like i e' hi := by
    rcases Nat.lt_or_ge i es.length with hlt | hge
    · rw [List.getElem?_append_left hlt] at hi
      exact hlike i e' hi
    · rw [List.getElem?_append_right hge] at hi
      obtain ⟨hlt, he⟩ := List.getElem?_eq_some_iff.mp hi
      rw [List.length_singleton] at hlt
      obtain rfl : i = es.length := by omega
      simp only [Nat.sub_self, List.getElem_cons_zero] at he
      exact he ▸ hnew
  unused f := by
    rw [group_append]
    dsimp only
    by_cases hf : e.filter = f
    · subst hf
      simp
    · rw [Function.update_of_ne (Ne.symm hf), if_neg hf]
      exact h.unused f
  last f p hp := by
    rw [findIdx?_append, group_append]
    dsimp only at hp
    by_cases hf : e.filter = f
    · subst hf
      rw [Function.update_self, h.i] at hp
      obtain rfl := Option.some.inj hp
      refine ⟨e, by simp, rfl, ?_⟩
      rw [if_pos rfl, if_pos rfl]
      cases hidx : es.findIdx? fun e' => e'.filter = e.filter with
      | none =>
        rw [group_eq_nil_iff.mpr hidx]
        simp
      | some j =>
        have hne : group es e.filter ≠ [] := fun hnil => by
          rw [group_eq_nil_iff.mp hnil] at hidx
          cases hidx
        have hlt := findIdx?_lt hidx
        refine iff_of_false ?_ ?_
        · simpa using hne
        · rw [Option.some_or, Option.some.injEq]
          omega
    · rw [Function.update_of_ne (Ne.symm hf)] at hp
      obtain ⟨e', hi, hfilter, hiff⟩ := h.last f p hp
      rw [if_neg hf, if_neg hf, Option.or_none]
      refine ⟨e', ?_, hfilter, hiff⟩
      rw [List.getElem?_append_left (List.getElem?_eq_some_iff.mp hi).1]
      exact hi
  first := hfirst

theorem findIdx?_filter {i : Nat} (h : es.findIdx? (fun e => e.filter = f) = some i) :
    ∃ e, es[i]? = some e ∧ e.filter = f := by
  obtain ⟨hlt, he, -⟩ := List.findIdx?_eq_some_iff_getElem.mp h
  exact ⟨es[i], List.getElem?_eq_getElem hlt, of_decide_eq_true he⟩

/-- The first entry of its filter. -/
theorem built_alone (h : Built es b) (hc : e.channel ∉ es.map Entry.channel)
    (hf : group es e.filter = []) :
    Built (es ++ [e])
      { i := b.i + 1
        cfgs := Function.update b.cfgs b.i e.config
        channelsUsed := Function.update b.channelsUsed e.channel true
        filtersUsed := Function.update b.filtersUsed e.filter (some b.i)
        channelOrder := Function.update b.channelOrder e.channel (some b.i) } := by
  have hlater : ∀ i < es.length, Function.update b.cfgs b.i e.config i = b.cfgs i := by
    intro i hi
    rw [h.i]
    exact Function.update_of_ne (Nat.ne_of_lt hi) ..
  have hself : Function.update b.cfgs b.i e.config es.length = e.config := by
    rw [h.i, Function.update_self]
  apply built_next h
  · refine (accepts_append h.accepts).mpr ⟨hc, fun e' he' hfilter => ?_⟩
    have hmem : e' ∈ group es e.filter := List.mem_filter.mpr ⟨he', by simpa using hfilter⟩
    rw [hf] at hmem
    cases hmem
  · intro i e' hi
    rw [hlater i (List.getElem?_eq_some_iff.mp hi).1]
    exact h.like i e' hi
  · rw [hself]
    exact like_config e
  · intro f i hi
    rw [findIdx?_append] at hi
    rw [group_append]
    by_cases hef : e.filter = f
    · subst hef
      rw [group_eq_nil_iff.mp hf, if_pos rfl, Option.none_or] at hi
      obtain rfl := Option.some.inj hi
      rw [if_pos rfl, hf, hself]
      exact hasMasks_config e
    · rw [if_neg hef, Option.or_none] at hi
      rw [if_neg hef, hlater i (findIdx?_lt hi)]
      exact h.first f i hi

/-- An entry that agrees with the last one of its filter. -/
theorem built_shared {p : Nat} {e' : Entry} (h : Built es b)
    (hc : e.channel ∉ es.map Entry.channel) (hp : b.filtersUsed e.filter = some p)
    (he' : es[p]? = some e') (hshared : Entry.shared e' = Entry.shared e) :
    Built (es ++ [e])
      { i := b.i + 1
        cfgs := Function.update (Function.update b.cfgs p ((b.cfgs p).share e.config)) b.i
          (e.config.copyMasks ((b.cfgs p).share e.config))
        channelsUsed := Function.update b.channelsUsed e.channel true
        filtersUsed := Function.update b.filtersUsed e.filter (some b.i)
        channelOrder := Function.update b.channelOrder e.channel (some b.i) } := by
  obtain ⟨e₀, he₀, hfilter, hiff⟩ := h.last e.filter p hp
  obtain rfl : e₀ = e' := Option.some.inj (he₀.symm.trans he')
  have hlater : ∀ (x y : Config) (i : Nat), i < es.length → i ≠ p →
      Function.update (Function.update b.cfgs p x) b.i y i = b.cfgs i := by
    intro x y i hi hip
    rw [h.i, Function.update_of_ne (Nat.ne_of_lt hi), Function.update_of_ne hip]
  have hpth : ∀ x y : Config, Function.update (Function.update b.cfgs p x) b.i y p = x := by
    intro x y
    have hlt := (List.getElem?_eq_some_iff.mp he').1
    rw [h.i, Function.update_of_ne (Nat.ne_of_lt hlt), Function.update_self]
  apply built_next h
  · refine (accepts_append h.accepts).mpr ⟨hc, fun a ha hfa => ?_⟩
    have hagree := h.accepts.agree a ha e₀ (List.mem_of_getElem? he') (hfa.trans hfilter.symm)
    exact hagree.trans hshared
  · intro i a hi
    by_cases hip : i = p
    · subst hip
      obtain rfl : e₀ = a := Option.some.inj (he'.symm.trans hi)
      rw [hpth]
      exact like_share (h.like i e₀ hi) hshared
    · rw [hlater _ _ i (List.getElem?_eq_some_iff.mp hi).1 hip]
      exact h.like i a hi
  · rw [h.i, Function.update_self]
    exact like_copyMasks (h.like p e₀ he') hshared
  · intro f i hi
    rw [findIdx?_append] at hi
    rw [group_append]
    by_cases hef : e.filter = f
    · subst hef
      have hne : group es e.filter ≠ [] := fun hnil => by
        rw [(h.unused e.filter).mpr hnil] at hp
        cases hp
      obtain ⟨j, hj⟩ := Option.ne_none_iff_exists'.mp (mt group_eq_nil_iff.mpr hne)
      rw [hj, Option.some_or] at hi
      obtain rfl := Option.some.inj hi
      have hfirst := h.first e.filter j hj
      rw [if_pos rfl]
      by_cases hjp : j = p
      · -- the filter had one channel, whose masks are those of the filter
        subst hjp
        have hone := hiff.mpr hj
        rw [hpth, List.take_of_length_le (by simp [hone])]
        rw [List.take_of_length_le (by omega)] at hfirst
        exact hasMasks_share hfirst
      · have hlen : (group es e.filter).length ≠ 1 := fun hone =>
          hjp (Option.some.inj (hj.symm.trans (hiff.mp hone)))
        have hpos := List.length_pos_iff.mpr hne
        rw [hlater _ _ j (findIdx?_lt hj) hjp, List.take_append_of_le_length (by omega)]
        exact hfirst
    · rw [if_neg hef, Option.or_none] at hi
      obtain ⟨a, ha, haf⟩ := findIdx?_filter hi
      have hip : i ≠ p := by
        rintro rfl
        obtain rfl : e₀ = a := Option.some.inj (he'.symm.trans ha)
        exact hef (hfilter.symm.trans haf)
      rw [if_neg hef, hlater _ _ i (findIdx?_lt hi) hip]
      exact h.first f i hi

/-- **One entry.** It is taken exactly when the list with it is still in order. -/
theorem add_spec (h : Built es b) (e : Entry) :
    b.add e = none ∧ ¬ Accepts (es ++ [e]) ∨ ∃ b', b.add e = some b' ∧ Built (es ++ [e]) b' := by
  unfold Builder.add
  by_cases hused : b.channelsUsed e.channel = true
  · rw [if_pos hused]
    refine .inl ⟨rfl, fun ha => ?_⟩
    exact ((accepts_append h.accepts).mp ha).1 ((h.channelsUsed e.channel).mp hused)
  · have hc : e.channel ∉ es.map Entry.channel := fun hmem => hused ((h.channelsUsed _).mpr hmem)
    rw [if_neg hused]
    cases hp : b.filtersUsed e.filter with
    | none =>
      exact .inr ⟨_, rfl, built_alone h hc ((h.unused e.filter).mp hp)⟩
    | some p =>
      obtain ⟨e', he', hfilter, -⟩ := h.last e.filter p hp
      have hagrees : (b.cfgs p).agrees e.config = true ↔ Entry.shared e' = Entry.shared e :=
        agrees_iff (h.like p e' he')
      dsimp only
      by_cases ha : (b.cfgs p).agrees e.config = true
      · rw [if_pos ha]
        exact .inr ⟨_, rfl, built_shared h hc hp he' (hagrees.mp ha)⟩
      · rw [if_neg ha]
        refine .inl ⟨rfl, fun hacc => ha (hagrees.mpr ?_)⟩
        exact ((accepts_append h.accepts).mp hacc).2 e' (List.mem_of_getElem? he') hfilter

theorem accepts_of_append {rest : List Entry} (h : Accepts (es ++ rest)) : Accepts es where
  nodup := by
    have hnodup := h.nodup
    rw [List.map_append] at hnodup
    exact (List.nodup_append.mp hnodup).1
  agree e he e' he' :=
    h.agree e (List.mem_append_left _ he) e' (List.mem_append_left _ he')

theorem addAll_spec : ∀ (rest : List Entry) {es : List Entry} {b : Builder}, Built es b →
    b.addAll rest = none ∧ ¬ Accepts (es ++ rest) ∨
      ∃ b', b.addAll rest = some b' ∧ Built (es ++ rest) b'
  | [], es, b, h => .inr ⟨b, rfl, by rwa [List.append_nil]⟩
  | e :: rest, es, b, h => by
    have happ : es ++ e :: rest = (es ++ [e]) ++ rest := by simp
    rcases add_spec h e with ⟨hnone, hnot⟩ | ⟨b', hsome, hb'⟩
    · refine .inl ⟨?_, fun ha => hnot ?_⟩
      · rw [Builder.addAll, hnone]
        rfl
      · rw [happ] at ha
        exact accepts_of_append ha
    · rw [Builder.addAll, hsome, happ]
      exact addAll_spec rest hb'

theorem built_nil : Built [] {} where
  i := rfl
  accepts := ⟨List.nodup_nil, by simp⟩
  channelsUsed c := by simp
  channelOrder c i := by simp
  like i e h := by simp at h
  unused f := by simp [group]
  last f p h := by cases h
  first f i h := by simp at h

/-- **The first loop.** -/
theorem addAll_eq_some (es : List Entry) (h : Accepts es) :
    ∃ b, Builder.addAll es {} = some b ∧ Built es b := by
  rcases addAll_spec es built_nil with ⟨-, hnot⟩ | hb
  · exact absurd h hnot
  · exact hb

theorem addAll_eq_none (es : List Entry) (h : ¬ Accepts es) : Builder.addAll es {} = none := by
  rcases addAll_spec es built_nil with ⟨hnone, -⟩ | ⟨b, -, hb⟩
  · exact hnone
  · exact absurd hb.accepts h

/-! ## The second loop -/

/-- A size as the second and the third loop see it. -/
def Entry.narrow (e : Entry) : Nat := e.bufferSize % 256

/-- The channels of a filter that the second loop counts. -/
def active (es : List Entry) (f : Fin 4) : List Entry :=
  (group es f).filter fun e => Entry.narrow e ≠ 0

/-- No regular channel comes on a filter, with those before it, as more than one. -/
def RegularAlone (es : List Entry) : Prop :=
  ∀ ps e rs, es = ps ++ e :: rs → e.configFilter.typeConv = .regular →
    (active (ps ++ [e]) e.filter).length ≤ 1

/-- More than one channel of a filter with DMA are scanned, with a buffer of one each. -/
def DmaUnits (es : List Entry) : Prop :=
  ∀ ps e rs, es = ps ++ e :: rs → e.configFilter.dma = true →
    1 < (active (ps ++ [e]) e.filter).length →
      e.configFilter.jscan ≠ .single ∧ ∀ e' ∈ group (ps ++ [e]) e.filter, Entry.narrow e' ≤ 1

/-- `channels_filter` after the entries `es`. -/
def table (es : List Entry) : Sizes := fun f c =>
  ((es.find? fun e => e.filter = f ∧ e.channel = c).map fun e => BitVec.ofNat 8 e.bufferSize).getD 0

section Like

variable {c : Config}

theorem Like.filter (h : Like e c) : c.filter = e.filter := congrArg Config.filter h.fields

theorem Like.channel (h : Like e c) : c.channel = e.channel := congrArg Config.channel h.fields

theorem Like.bufferSize (h : Like e c) : c.bufferSize = e.bufferSize :=
  congrArg Config.bufferSize h.fields

theorem Like.dmaEnable (h : Like e c) : c.dmaEnable = e.configFilter.dma :=
  congrArg Config.dmaEnable h.fields

theorem Like.typeConv (h : Like e c) : c.typeConv = e.configFilter.typeConv :=
  congrArg Config.typeConv h.fields

end Like

theorem table_append (hc : e.channel ∉ es.map Entry.channel) :
    table (es ++ [e]) = Function.update (table es) e.filter
      (Function.update (table es e.filter) e.channel (BitVec.ofNat 8 e.bufferSize)) := by
  have hfresh : ∀ f, es.find? (fun a => a.filter = f ∧ a.channel = e.channel) = none := by
    intro f
    rw [List.find?_eq_none]
    intro a ha hboth
    have hboth := of_decide_eq_true hboth
    exact hc (List.mem_map.mpr ⟨a, ha, hboth.2⟩)
  funext f c
  unfold table
  rw [List.find?_append]
  by_cases hf : f = e.filter
  · subst hf
    rw [Function.update_self]
    by_cases hce : c = e.channel
    · subst hce
      rw [Function.update_self, hfresh]
      simp
    · rw [Function.update_of_ne hce]
      simp [Ne.symm hce]
  · rw [Function.update_of_ne hf]
    simp [Ne.symm hf]

/-- Where the table is not zero. -/
theorem table_eq_iff (hnodup : (es.map Entry.channel).Nodup) {c : Fin 8} {v : BitVec 8}
    (hv : v ≠ 0) :
    table es f c = v ↔ ∃ e ∈ group es f, e.channel = c ∧ BitVec.ofNat 8 e.bufferSize = v := by
  unfold table
  cases hfind : es.find? fun e => e.filter = f ∧ e.channel = c with
  | none =>
    refine iff_of_false (fun h => hv h.symm) ?_
    rintro ⟨e, he, hc, -⟩
    obtain ⟨hmem, hfilter⟩ := List.mem_filter.mp he
    have hnot := List.find?_eq_none.mp hfind e hmem
    exact hnot (decide_eq_true ⟨of_decide_eq_true hfilter, hc⟩)
  | some a =>
    have hfound := List.find?_some hfind
    obtain ⟨haf, hac⟩ := of_decide_eq_true hfound
    have ha := List.mem_of_find?_eq_some hfind
    constructor
    · intro h
      exact ⟨a, List.mem_filter.mpr ⟨ha, decide_eq_true haf⟩, hac, h⟩
    · rintro ⟨e, he, hc, hsize⟩
      have hsame : e = a := List.inj_on_of_nodup_map hnodup (List.mem_filter.mp he).1 ha
        (hc.trans hac.symm)
      rw [← hsame]
      exact hsize

theorem ofNat_ne_zero (e : Entry) : BitVec.ofNat 8 e.bufferSize ≠ 0 ↔ Entry.narrow e ≠ 0 := by
  rw [not_iff_not, ← BitVec.toNat_inj]
  exact Iff.rfl

/-- The second loop counts the channels that count. -/
theorem activeChannels_table (hnodup : (es.map Entry.channel).Nodup) (f : Fin 4) :
    activeChannels (table es f) = (active es f).length := by
  have hsub : (active es f).Sublist es := List.filter_sublist.trans List.filter_sublist
  have hperm : ((List.finRange 8).filter fun j => table es f j != 0).Perm
      ((active es f).map Entry.channel) := by
    refine (List.perm_ext_iff_of_nodup ((List.nodup_finRange 8).filter _)
      (hnodup.sublist (hsub.map _))).mpr fun c => ?_
    rw [List.mem_filter, List.mem_map, bne_iff_ne, and_iff_right (List.mem_finRange c)]
    constructor
    · intro h
      obtain ⟨e, he, hc, hsize⟩ := (table_eq_iff hnodup h).mp rfl
      refine ⟨e, List.mem_filter.mpr ⟨he, ?_⟩, hc⟩
      exact decide_eq_true ((ofNat_ne_zero e).mp (hsize ▸ h))
    · rintro ⟨e, he, hc⟩
      obtain ⟨hgroup, hactive⟩ := List.mem_filter.mp he
      have hne := (ofNat_ne_zero e).mpr (of_decide_eq_true hactive)
      rw [(table_eq_iff hnodup hne).mpr ⟨e, hgroup, hc, rfl⟩]
      exact hne
  rw [activeChannels, List.countP_eq_length_filter, hperm.length_eq, List.length_map]

theorem any_table (hnodup : (es.map Entry.channel).Nodup) (f : Fin 4) :
    ((List.finRange 8).any fun j => decide (table es f j > 1)) = true ↔
      ∃ e ∈ group es f, 1 < Entry.narrow e := by
  rw [List.any_eq_true]
  constructor
  · rintro ⟨c, -, hc⟩
    have hgt : table es f c > 1 := of_decide_eq_true hc
    have hne : table es f c ≠ 0 := fun h => by
      rw [h] at hgt
      exact absurd hgt (by decide)
    obtain ⟨e, he, -, hsize⟩ := (table_eq_iff hnodup hne).mp rfl
    rw [← hsize] at hgt
    exact ⟨e, he, hgt⟩
  · rintro ⟨e, he, hgt⟩
    have hne := (ofNat_ne_zero e).mpr (Nat.ne_of_gt (Nat.lt_of_succ_lt hgt))
    refine ⟨e.channel, List.mem_finRange _, decide_eq_true ?_⟩
    rw [(table_eq_iff hnodup hne).mpr ⟨e, he, rfl, rfl⟩]
    exact hgt

theorem forall_splits_cons {α : Type*} {P : List α → α → Prop} {a : α} {rest : List α} :
    (∀ qs e rs, a :: rest = qs ++ e :: rs → P qs e) ↔
      P [] a ∧ ∀ qs e rs, rest = qs ++ e :: rs → P (a :: qs) e := by
  constructor
  · intro h
    exact ⟨h [] a rest rfl, fun qs e rs hsplit => h (a :: qs) e rs (by rw [hsplit]; rfl)⟩
  · rintro ⟨hhead, htail⟩ qs e rs hsplit
    cases qs with
    | nil =>
      obtain ⟨rfl, rfl⟩ := List.cons.inj hsplit
      exact hhead
    | cons q qs =>
      obtain ⟨rfl, hrest⟩ := List.cons.inj hsplit
      exact htail qs e rs hrest

/-- What the second loop checks of an entry, after those in `ps`. -/
def Valid (ps : List Entry) (e : Entry) : Prop :=
  (e.configFilter.typeConv = .regular → (active (ps ++ [e]) e.filter).length ≤ 1) ∧
    (e.configFilter.dma = true → 1 < (active (ps ++ [e]) e.filter).length →
      e.configFilter.jscan ≠ .single ∧ ∀ e' ∈ group (ps ++ [e]) e.filter, Entry.narrow e' ≤ 1)

/-- **The second loop.** -/
theorem validate_iff {cfgs : Nat → Config} : ∀ (rest ps : List Entry),
    ((ps ++ rest).map Entry.channel).Nodup →
    (∀ i e, (ps ++ rest)[i]? = some e → Like e (cfgs i)) →
      (validate cfgs ps.length rest (table ps) = true ↔
        ∀ qs e rs, rest = qs ++ e :: rs → Valid (ps ++ qs) e)
  | [], ps, _, _ => by
    refine iff_of_true rfl fun qs e rs h => ?_
    simp at h
  | e :: rest, ps, hnodup, hlike => by
    have happ : ps ++ e :: rest = (ps ++ [e]) ++ rest := by simp
    have hl : Like e (cfgs ps.length) := hlike ps.length e (by simp)
    rw [happ] at hnodup hlike
    have hps : ((ps ++ [e]).map Entry.channel).Nodup := by
      rw [List.map_append] at hnodup
      exact (List.nodup_append.mp hnodup).1
    have hfresh : e.channel ∉ ps.map Entry.channel := by
      rw [List.map_append, List.map_singleton] at hps
      exact fun hmem => (List.nodup_append.mp hps).2.2 _ hmem _ (List.mem_singleton_self _) rfl
    have hrest := validate_iff rest (ps ++ [e]) hnodup hlike
    rw [List.length_append, List.length_singleton] at hrest
    rw [forall_splits_cons, validate, hl.filter, hl.channel, hl.bufferSize, hl.dmaEnable, ← table_append hfresh,
      activeChannels_table hps]
    have htail : (∀ qs a rs, rest = qs ++ a :: rs → Valid (ps ++ e :: qs) a) ↔
        validate cfgs (ps.length + 1) rest (table (ps ++ [e])) = true := by
      rw [hrest]
      simp only [List.append_assoc, List.singleton_append]
    rw [htail, List.append_nil]
    have hany := any_table hps e.filter
    by_cases hactive : 1 < (active (ps ++ [e]) e.filter).length
    · by_cases hregular : e.configFilter.typeConv = .regular
      · rw [if_pos ⟨hactive, hregular⟩]
        exact iff_of_false Bool.false_ne_true fun h => absurd (h.1.1 hregular) (Nat.not_le.mpr hactive)
      · rw [if_neg fun h => hregular h.2]
        by_cases hdma : e.configFilter.dma = true
        · rw [if_pos ⟨hactive, hdma⟩]
          by_cases hsingle : e.configFilter.jscan = .single
          · rw [if_pos hsingle]
            exact iff_of_false Bool.false_ne_true fun h => (h.1.2 hdma hactive).1 hsingle
          · rw [if_neg hsingle]
            by_cases hbig : ∃ e' ∈ group (ps ++ [e]) e.filter, 1 < Entry.narrow e'
            · rw [if_pos (hany.mpr hbig)]
              refine iff_of_false Bool.false_ne_true fun h => ?_
              obtain ⟨e', he', hgt⟩ := hbig
              exact absurd ((h.1.2 hdma hactive).2 e' he') (Nat.not_le.mpr hgt)
            · rw [if_neg (mt hany.mp hbig)]
              refine (and_iff_right ⟨fun h => absurd h hregular, fun _ _ => ⟨hsingle, ?_⟩⟩).symm
              exact fun e' he' => Nat.not_lt.mp fun hgt => hbig ⟨e', he', hgt⟩
        · rw [if_neg fun h => hdma h.2]
          exact (and_iff_right ⟨fun h => absurd h hregular, fun h => absurd h hdma⟩).symm
    · rw [if_neg fun h => hactive h.1, if_neg fun h => hactive h.1]
      exact (and_iff_right ⟨fun _ => Nat.not_lt.mp hactive, fun _ h => absurd h hactive⟩).symm

theorem valid_iff (es : List Entry) :
    (∀ ps e rs, es = ps ++ e :: rs → Valid ps e) ↔ RegularAlone es ∧ DmaUnits es := by
  constructor
  · intro h
    exact ⟨fun ps e rs hs => (h ps e rs hs).1, fun ps e rs hs => (h ps e rs hs).2⟩
  · rintro ⟨hr, hd⟩ ps e rs hs
    exact ⟨hr ps e rs hs, hd ps e rs hs⟩

/-! ## The third loop -/

/-- The size of the channel `c` if it is on the filter. -/
def sizeOn (es : List Entry) (f : Fin 4) (c : Fin 8) : Nat :=
  ((es.find? fun e => e.filter = f ∧ e.channel = c).map Entry.bufferSize).getD 0

/-- The sizes of some channels on a filter. -/
def taken (es : List Entry) (f : Fin 4) (cs : List (Fin 8)) : Nat := (cs.map (sizeOn es f)).sum

theorem sizeOn_of_mem (hnodup : (es.map Entry.channel).Nodup) (he : e ∈ es) (f : Fin 4) :
    sizeOn es f e.channel = if e.filter = f then e.bufferSize else 0 := by
  unfold sizeOn
  cases hfind : es.find? fun a => a.filter = f ∧ a.channel = e.channel with
  | none =>
    have hnot := List.find?_eq_none.mp hfind e he
    rw [if_neg fun h => hnot (decide_eq_true ⟨h, rfl⟩)]
    rfl
  | some a =>
    have hfound := List.find?_some hfind
    obtain ⟨haf, hac⟩ := of_decide_eq_true hfound
    have hsame : a = e :=
      List.inj_on_of_nodup_map hnodup (List.mem_of_find?_eq_some hfind) he hac
    rw [hsame] at haf ⊢
    rw [if_pos haf]
    rfl

theorem sizeOn_of_notMem {c : Fin 8} (hc : c ∉ es.map Entry.channel) (f : Fin 4) :
    sizeOn es f c = 0 := by
  unfold sizeOn
  have hnone : (es.find? fun a => a.filter = f ∧ a.channel = c) = none := by
    rw [List.find?_eq_none]
    intro a ha hboth
    exact hc (List.mem_map.mpr ⟨a, ha, (of_decide_eq_true hboth).2⟩)
  rw [hnone]
  rfl

theorem taken_cons (es : List Entry) (f : Fin 4) (c : Fin 8) (cs : List (Fin 8)) :
    taken es f (c :: cs) = sizeOn es f c + taken es f cs := by
  rw [taken, List.map_cons, List.sum_cons, ← taken]

variable {order : Fin 8 → Option Nat}

/-- **The third loop.** A channel among `cs` starts where those before it end, and the
others are left. -/
theorem givePositions_apply (hnodup : (es.map Entry.channel).Nodup)
    (horder : ∀ c i, order c = some i ↔ (es.map Entry.channel)[i]? = some c) :
    ∀ (cs : List (Fin 8)) (pos : Fin 4 → BitVec 8) (cfgs : Nat → Config), cs.Nodup →
      (∀ i e, es[i]? = some e → (cfgs i).filter = e.filter ∧ (cfgs i).bufferSize = e.bufferSize) →
      ∀ i e, es[i]? = some e → givePositions order cs pos cfgs i =
        if e.channel ∈ cs then
          (cfgs i).place (pos e.filter +
            BitVec.ofNat 8 (taken es e.filter (cs.takeWhile (· ≠ e.channel))))
        else cfgs i
  | [], pos, cfgs, _, _, i, e, _ => by simp [givePositions]
  | d :: cs, pos, cfgs, hcs, hcfgs, i, e, he => by
    obtain ⟨hd, hcs⟩ := List.nodup_cons.mp hcs
    have hi : order e.channel = some i := (horder _ _).mpr (by rw [List.getElem?_map, he]; rfl)
    unfold givePositions
    cases hod : order d with
    | none =>
      have hne : d ≠ e.channel := fun h => by
        rw [h, hi] at hod
        cases hod
      have hnot : d ∉ es.map Entry.channel := fun hmem => by
        obtain ⟨k, hk⟩ := List.mem_iff_getElem?.mp hmem
        rw [(horder d k).mpr hk] at hod
        cases hod
      dsimp only
      rw [givePositions_apply hnodup horder cs pos cfgs hcs hcfgs i e he,
        List.takeWhile_cons_of_pos (by simpa using hne)]
      simp [taken, sizeOn_of_notMem hnot, Ne.symm hne]
    | some k =>
      obtain ⟨a, ha, had⟩ : ∃ a, es[k]? = some a ∧ a.channel = d := by
        have hk := (horder d k).mp hod
        rwa [List.getElem?_map, Option.map_eq_some_iff] at hk
      obtain ⟨hfilter, hsize⟩ := hcfgs k a ha
      dsimp only
      rw [hfilter, hsize]
      have hcfgs' : ∀ i e, es[i]? = some e →
          (Function.update cfgs k ((cfgs k).place (pos a.filter)) i).filter = e.filter ∧
            (Function.update cfgs k ((cfgs k).place (pos a.filter)) i).bufferSize = e.bufferSize := by
        intro j c hj
        by_cases hjk : j = k
        · subst hjk
          rw [Function.update_self]
          exact hcfgs j c hj
        · rw [Function.update_of_ne hjk]
          exact hcfgs j c hj
      rw [givePositions_apply hnodup horder cs _ _ hcs hcfgs' i e he]
      by_cases hde : d = e.channel
      · subst hde
        obtain rfl : i = k := Option.some.inj (hi.symm.trans hod)
        obtain rfl : a = e := Option.some.inj (ha.symm.trans he)
        rw [if_neg hd, if_pos List.mem_cons_self, Function.update_self,
          List.takeWhile_cons_of_neg (by simp)]
        simp [taken]
      · have hik : i ≠ k := fun h => hde (by
          subst h
          obtain rfl : a = e := Option.some.inj (ha.symm.trans he)
          exact had.symm)
        have hsizeOn := sizeOn_of_mem hnodup (List.mem_of_getElem? ha) e.filter
        rw [had] at hsizeOn
        rw [Function.update_of_ne hik, List.takeWhile_cons_of_pos (by simpa using hde),
          taken_cons, hsizeOn]
        by_cases hmem : e.channel ∈ cs
        · rw [if_pos hmem, if_pos (List.mem_cons_of_mem d hmem)]
          by_cases haf : a.filter = e.filter
          · rw [haf, Function.update_self, if_pos rfl, BitVec.ofNat_add, BitVec.add_assoc]
          · rw [Function.update_of_ne (Ne.symm haf), if_neg haf, Nat.zero_add]
        · have hnot : e.channel ∉ d :: cs := by simp [hmem, Ne.symm hde]
          rw [if_neg hmem, if_neg hnot]

/-- The sizes of the channels of a filter below the `n`-th. -/
def below (es : List Entry) (f : Fin 4) (n : Nat) : Nat :=
  ∑ d : Fin 8 with d.val < n, sizeOn es f d

theorem taken_takeWhile (es : List Entry) (f : Fin 4) (c : Fin 8) :
    taken es f ((List.finRange 8).takeWhile (· ≠ c)) = below es f c := by
  have hset : ((List.finRange 8).takeWhile (· ≠ c)).toFinset =
      Finset.univ.filter fun d : Fin 8 => d.val < c.val := by
    revert c
    decide
  have hnodup := (List.nodup_finRange 8).sublist (List.takeWhile_sublist (· ≠ c))
  rw [below, ← hset, List.sum_toFinset _ hnodup, taken]

theorem below_succ (es : List Entry) (f : Fin 4) (c : Fin 8) :
    below es f (c.val + 1) = below es f c.val + sizeOn es f c := by
  have hset : (Finset.univ.filter fun d : Fin 8 => d.val < c.val + 1) =
      insert c (Finset.univ.filter fun d : Fin 8 => d.val < c.val) := by
    ext d
    simp only [Finset.mem_filter, Finset.mem_univ, true_and, Finset.mem_insert, Fin.ext_iff]
    omega
  rw [below, hset, Finset.sum_insert (by simp), Nat.add_comm, ← below]

theorem below_mono (es : List Entry) (f : Fin 4) {m n : Nat} (h : m ≤ n) :
    below es f m ≤ below es f n := by
  refine Finset.sum_le_sum_of_subset fun d hd => ?_
  simp only [Finset.mem_filter, Finset.mem_univ, true_and] at hd ⊢
  omega

/-! ## `build` -/

/-- **What `build` accepts**, and what it returns then. -/
theorem build_eq_some (ha : Accepts es) (hr : RegularAlone es) (hd : DmaUnits es) :
    ∃ b cfgs, Built es b ∧ build es = some cfgs ∧ ∀ i, cfgs[i]? = es[i]?.map fun e =>
      (b.cfgs i).place (BitVec.ofNat 8 (below es e.filter e.channel)) := by
  obtain ⟨b, hb, hbuilt⟩ := addAll_eq_some es ha
  have hvalid : validate b.cfgs 0 es (fun _ _ => 0) = true :=
    (validate_iff es [] ha.nodup hbuilt.like).mpr ((valid_iff es).mpr ⟨hr, hd⟩)
  refine ⟨b, (List.range es.length).map
    (givePositions b.channelOrder (List.finRange 8) (fun _ => 0) b.cfgs), hbuilt, ?_, fun i => ?_⟩
  · unfold build
    rw [hb, Option.bind_some, if_pos hvalid]
  · rw [List.getElem?_map]
    rcases Nat.lt_or_ge i es.length with hlt | hge
    · have he := List.getElem?_eq_getElem hlt
      rw [List.getElem?_range hlt, he, Option.map_some, Option.map_some,
        givePositions_apply ha.nodup hbuilt.channelOrder _ _ _ (List.nodup_finRange 8)
          (fun j e hj => ⟨(hbuilt.like j e hj).filter, (hbuilt.like j e hj).bufferSize⟩) i _ he,
        if_pos (List.mem_finRange _), taken_takeWhile, zero_add]
    · rw [List.getElem?_eq_none (by simpa using hge), List.getElem?_eq_none hge]
      rfl

theorem build_eq_none (h : ¬ (Accepts es ∧ RegularAlone es ∧ DmaUnits es)) : build es = none := by
  by_cases ha : Accepts es
  · obtain ⟨b, hb, hbuilt⟩ := addAll_eq_some es ha
    have hinvalid : ¬ validate b.cfgs 0 es (fun _ _ => 0) = true := fun hvalid =>
      h ⟨ha, (valid_iff es).mp ((validate_iff es [] ha.nodup hbuilt.like).mp hvalid)⟩
    unfold build
    rw [hb, Option.bind_some, if_neg hinvalid]
  · unfold build
    rw [addAll_eq_none es ha]
    rfl

/-- A list that is accepted, with what it is built from. -/
theorem of_build {cfgs : List Config} (h : build es = some cfgs) :
    (Accepts es ∧ RegularAlone es ∧ DmaUnits es) ∧ ∃ b, Built es b ∧ ∀ i, cfgs[i]? =
      es[i]?.map fun e => (b.cfgs i).place (BitVec.ofNat 8 (below es e.filter e.channel)) := by
  by_cases hok : Accepts es ∧ RegularAlone es ∧ DmaUnits es
  · obtain ⟨b, cfgs', hb, hbuild, hcfgs⟩ := build_eq_some hok.1 hok.2.1 hok.2.2
    cases h.symm.trans hbuild
    exact ⟨hok, b, hb, hcfgs⟩
  · rw [build_eq_none hok] at h
    cases h

theorem length_build {cfgs : List Config} (h : build es = some cfgs) :
    cfgs.length = es.length := by
  obtain ⟨-, b, -, hcfgs⟩ := of_build h
  have hsome : ∀ i : Nat, cfgs[i]? = none ↔ es[i]? = none := by
    intro i
    rw [hcfgs, Option.map_eq_none_iff]
  apply Nat.le_antisymm
  · exact List.getElem?_eq_none_iff.mp ((hsome _).mpr (List.getElem?_eq_none (Nat.le_refl _)))
  · exact List.getElem?_eq_none_iff.mp ((hsome _).mp (List.getElem?_eq_none (Nat.le_refl _)))

/-- A configuration is that of its entry, with its position. -/
theorem getElem?_build {cfgs : List Config} (h : build es = some cfgs) {i : Nat}
    (he : es[i]? = some e) :
    ∃ c, Like e c ∧ cfgs[i]? = some (c.place (BitVec.ofNat 8 (below es e.filter e.channel))) := by
  obtain ⟨-, b, hb, hcfgs⟩ := of_build h
  refine ⟨b.cfgs i, hb.like i e he, ?_⟩
  rw [hcfgs, he]
  rfl

/-- What a configuration has of its entry. -/
structure Describes (es : List Entry) (e : Entry) (c : Config) : Prop where
  filter : c.filter = e.filter
  channel : c.channel = e.channel
  bufferSize : c.bufferSize = e.bufferSize
  typeConv : c.typeConv = e.configFilter.typeConv
  dmaEnable : c.dmaEnable = e.configFilter.dma
  bufferPosIni : c.bufferPosIni = below es e.filter e.channel % 256

theorem describes_build {cfgs : List Config} (h : build es = some cfgs) {i : Nat}
    (he : es[i]? = some e) : ∃ c, cfgs[i]? = some c ∧ Describes es e c := by
  obtain ⟨c, hl, hc⟩ := getElem?_build h he
  refine ⟨_, hc, hl.filter, hl.channel, hl.bufferSize, hl.typeConv, hl.dmaEnable, ?_⟩
  exact BitVec.toNat_ofNat ..

theorem describes_of_mem {cfgs : List Config} (h : build es = some cfgs) {c : Config}
    (hc : c ∈ cfgs) : ∃ e ∈ es, Describes es e c := by
  obtain ⟨i, hi⟩ := List.mem_iff_getElem?.mp hc
  have hlt : i < es.length := length_build h ▸ (List.getElem?_eq_some_iff.mp hi).1
  obtain ⟨c', hc', hd⟩ := describes_build h (List.getElem?_eq_getElem hlt)
  cases hi.symm.trans hc'
  exact ⟨es[i], List.getElem_mem hlt, hd⟩

theorem exists_describes {cfgs : List Config} (h : build es = some cfgs) (he : e ∈ es) :
    ∃ c ∈ cfgs, Describes es e c := by
  obtain ⟨i, hi⟩ := List.mem_iff_getElem?.mp he
  obtain ⟨c, hc, hd⟩ := describes_build h hi
  exact ⟨c, List.mem_of_getElem? hc, hd⟩

/-- What depends on the descriptions only can be read from the entries. -/
theorem map_build {β : Type*} {cfgs : List Config} (h : build es = some cfgs) (g : Config → β)
    (g' : Entry → β) (hg : ∀ e c, Describes es e c → g c = g' e) : cfgs.map g = es.map g' := by
  refine List.ext_getElem? fun i => ?_
  rw [List.getElem?_map, List.getElem?_map]
  cases he : es[i]? with
  | none =>
    have hnone : cfgs[i]? = none := by
      rw [List.getElem?_eq_none_iff, length_build h]
      exact List.getElem?_eq_none_iff.mp he
    rw [hnone]
    rfl
  | some e =>
    obtain ⟨c, hc, hd⟩ := describes_build h he
    rw [hc, Option.map_some, Option.map_some, hg e c hd]

end StLib.Dfsdm.Build
