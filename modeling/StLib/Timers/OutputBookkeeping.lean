import StLib.Timers.Outputs

/-! # The bookkeeping of the outputs of a timer

What a call of one object changes at its channels, and that nothing else does change: the
enable bits, the states of the channels, the counter and the main output enable are those
of the outputs that are on, for as long as no call reaches what `Meets` excludes. -/
namespace StLib.Timers.Outputs

open StLib.Base.RegisterBits StLib.Base.Runs State

variable {n : Nat} {timer : Timer n} {a : Fin n} {i j : Fin 4} {p q : Bool} {s t : State n}

/-! ## Channels and their owners -/

theorem exists_owner {P : Fin n → Prop} (hj : j ∈ (timer.object a).channels) :
    (∃ b, j ∈ (timer.object b).channels ∧ P b) ↔ P a := by
  constructor
  · rintro ⟨b, hb, hp⟩
    rwa [timer.disjoint a b j hj hb]
  · exact fun hp => ⟨a, hj, hp⟩

theorem exists_other {P Q : Fin n → Prop} (hj : j ∉ (timer.object a).channels)
    (h : ∀ b, b ≠ a → (P b ↔ Q b)) :
    (∃ b, j ∈ (timer.object b).channels ∧ P b) ↔ ∃ b, j ∈ (timer.object b).channels ∧ Q b := by
  refine exists_congr fun b => and_congr_right fun hb => h b ?_
  rintro rfl
  exact hj hb

/-- The state of a channel whose output is on or off. -/
def stateOf (on : Bool) : ChannelState := if on then .busy else .ready

theorem stateOf_eq_busy (on : Bool) : stateOf on = .busy ↔ on = true := by cases on <;> simp [stateOf]

theorem eq_stateOf {state : ChannelState} {on : Bool} (h : state = .busy ↔ on = true) :
    state = stateOf on := by
  cases state <;> cases on <;> simp_all [stateOf]

/-- The enable bits and the states are those of the outputs that are on. -/
structure Channels (timer : Timer n) (s : State n) : Prop where
  enabled : ∀ j : Fin 4, s.ccer.getLsbD (4 * j) = true ↔
    ∃ a, j ∈ (timer.object a).channels ∧ s.positive a = true
  negatedEnabled : ∀ j : Fin 4, s.ccer.getLsbD (4 * j + 2) = true ↔
    ∃ a, j ∈ (timer.object a).channels ∧ s.negative a = true
  channelState : ∀ j, s.channelState j = .busy ↔
    ∃ a, j ∈ (timer.object a).channels ∧ s.positive a = true
  channelNState : ∀ j, s.channelNState j = .busy ↔ ∃ a, j ∈ (timer.object a).channels ∧
    (s.negative a = true ∨ ((timer.object a).isInputCapture = true ∧ s.positive a = true))
  others : s.ccer.getLsbD 16 = false ∧ s.ccer.getLsbD 20 = false
  dual : ∀ a, s.negative a = true → (timer.object a).isDual = true

namespace Channels

theorem own_enabled (h : Channels timer s) (hj : j ∈ (timer.object a).channels) :
    s.ccer.getLsbD (4 * j) = s.positive a :=
  Bool.eq_iff_iff.mpr ((h.enabled j).trans (exists_owner hj))

theorem own_negatedEnabled (h : Channels timer s) (hj : j ∈ (timer.object a).channels) :
    s.ccer.getLsbD (4 * j + 2) = s.negative a :=
  Bool.eq_iff_iff.mpr ((h.negatedEnabled j).trans (exists_owner hj))

theorem own_channelState (h : Channels timer s) (hj : j ∈ (timer.object a).channels) :
    s.channelState j = stateOf (s.positive a) :=
  eq_stateOf ((h.channelState j).trans (exists_owner hj))

theorem own_channelNState (h : Channels timer s) (hj : j ∈ (timer.object a).channels) :
    s.channelNState j =
      stateOf (s.negative a || ((timer.object a).isInputCapture && s.positive a)) :=
  eq_stateOf ((h.channelNState j).trans ((exists_owner hj).trans (by simp)))

theorem negative_eq_false (h : Channels timer s) (ha : (timer.object a).isDual = false) :
    s.negative a = false := by
  cases hneg : s.negative a with
  | false => rfl
  | true => rw [h.dual a hneg] at ha; cases ha

end Channels

/-! ## What a call changes -/

/-- The outputs of an object become on or off, with all that goes with them. -/
structure Changed (timer : Timer n) (a : Fin n) (p q : Bool) (s t : State n) : Prop where
  positive : t.positive = Function.update s.positive a p
  negative : t.negative = Function.update s.negative a q
  enabled : ∀ j : Fin 4, t.ccer.getLsbD (4 * j) =
    if j ∈ (timer.object a).channels then p else s.ccer.getLsbD (4 * j)
  negatedEnabled : ∀ j : Fin 4, t.ccer.getLsbD (4 * j + 2) =
    if j ∈ (timer.object a).channels then q else s.ccer.getLsbD (4 * j + 2)
  channelState : ∀ j, t.channelState j =
    if j ∈ (timer.object a).channels then stateOf p else s.channelState j
  channelNState : ∀ j, t.channelNState j =
    if j ∈ (timer.object a).channels then stateOf (q || ((timer.object a).isInputCapture && p))
    else s.channelNState j
  others : t.ccer.getLsbD 16 = s.ccer.getLsbD 16 ∧ t.ccer.getLsbD 20 = s.ccer.getLsbD 20

theorem Channels.changed (h : Channels timer s) (c : Changed timer a p q s t)
    (hq : q = true → (timer.object a).isDual = true) : Channels timer t := by
  have hpos : ∀ b, b ≠ a → t.positive b = s.positive b := fun b hb => by
    rw [c.positive, Function.update_of_ne hb]
  have hneg : ∀ b, b ≠ a → t.negative b = s.negative b := fun b hb => by
    rw [c.negative, Function.update_of_ne hb]
  have hposa : t.positive a = p := by rw [c.positive, Function.update_self]
  have hnega : t.negative a = q := by rw [c.negative, Function.update_self]
  refine ⟨fun j => ?_, fun j => ?_, fun j => ?_, fun j => ?_, ?_, fun b hb => ?_⟩
  · rw [c.enabled]
    split
    · rename_i hj
      rw [exists_owner hj, hposa]
    · rename_i hj
      rw [h.enabled]
      exact exists_other hj fun b hb => by rw [hpos b hb]
  · rw [c.negatedEnabled]
    split
    · rename_i hj
      rw [exists_owner hj, hnega]
    · rename_i hj
      rw [h.negatedEnabled]
      exact exists_other hj fun b hb => by rw [hneg b hb]
  · rw [c.channelState]
    split
    · rename_i hj
      rw [exists_owner hj, hposa, stateOf_eq_busy]
    · rename_i hj
      rw [h.channelState]
      exact exists_other hj fun b hb => by rw [hpos b hb]
  · rw [c.channelNState]
    split
    · rename_i hj
      rw [exists_owner hj, hposa, hnega, stateOf_eq_busy, Bool.or_eq_true, Bool.and_eq_true]
    · rename_i hj
      rw [h.channelNState]
      exact exists_other hj fun b hb => by rw [hpos b hb, hneg b hb]
  · rw [c.others.1, c.others.2]
    exact h.others
  · by_cases hba : b = a
    · subst hba
      exact hq (hnega ▸ hb)
    · exact h.dual b (hneg b hba ▸ hb)

/-! ## When all channels are free -/

theorem object_channels_ne_nil (o : Object) : ∃ j, j ∈ o.channels := by
  cases o with
  | pwm i _ _ => exact ⟨i, List.mem_singleton_self i⟩
  | dualPwm i _ _ => exact ⟨i, List.mem_singleton_self i⟩
  | inputCapture r f => exact ⟨r, List.mem_cons_self⟩

theorem dual_channel_lt (o : Object) (ho : o.HasPins) (hd : o.isDual = true) :
    ∃ j ∈ o.channels, j.val < 3 := by
  cases o with
  | dualPwm i _ _ => exact ⟨i, List.mem_singleton_self i, ho⟩
  | pwm => cases hd
  | inputCapture => cases hd

theorem ccxe_mask_bits (k : Nat) : timCcerCcxeMask.getLsbD k = true →
    k = 16 ∨ k = 20 ∨ ∃ j : Fin 4, k = 4 * j := by
  intro hk
  have hlt : k < 32 := BitVec.lt_of_getLsbD hk
  have hall : ∀ k < 32, timCcerCcxeMask.getLsbD k = true →
      k = 16 ∨ k = 20 ∨ ∃ j : Fin 4, k = 4 * j := by decide
  exact hall k hlt hk

theorem ccxne_mask_bits (k : Nat) : timCcerCcxneMask.getLsbD k = true → ∃ j : Fin 4, k = 4 * j + 2 := by
  intro hk
  have hlt : k < 32 := BitVec.lt_of_getLsbD hk
  have hall : ∀ k < 32, timCcerCcxneMask.getLsbD k = true → ∃ j : Fin 4, k = 4 * j + 2 := by decide
  exact hall k hlt hk

theorem ccxe_mask_channel (j : Fin 4) : timCcerCcxeMask.getLsbD (4 * j) = true := by
  revert j
  decide

theorem ccxne_mask_channel {j : Fin 4} (hj : j.val < 3) :
    timCcerCcxneMask.getLsbD (4 * j + 2) = true := by
  revert j
  decide

/-- `are_all_channels_free` tells whether an output is on. -/
theorem Channels.free_iff (h : Channels timer s) : s.areAllChannelsFree = true ↔ ¬ AnyOn s := by
  rw [areAllChannelsFree, Bool.and_eq_true, beq_iff_eq, beq_iff_eq, and_mask_eq_zero_iff,
    and_mask_eq_zero_iff]
  constructor
  · rintro ⟨hpos, hneg⟩ ⟨a, ha | ha⟩
    · obtain ⟨j, hj⟩ := object_channels_ne_nil (timer.object a)
      have hbit := hpos (4 * j) (ccxe_mask_channel j)
      rw [h.own_enabled hj, ha] at hbit
      cases hbit
    · obtain ⟨j, hj, hlt⟩ := dual_channel_lt _ (timer.hasPins a) (h.dual a ha)
      have hbit := hneg (4 * j + 2) (ccxne_mask_channel hlt)
      rw [h.own_negatedEnabled hj, ha] at hbit
      cases hbit
  · intro hoff
    constructor
    · intro k hk
      rcases ccxe_mask_bits k hk with rfl | rfl | ⟨j, rfl⟩
      · exact h.others.1
      · exact h.others.2
      · rw [Bool.eq_false_iff]
        intro hbit
        obtain ⟨a, -, ha⟩ := (h.enabled j).mp hbit
        exact hoff ⟨a, .inl ha⟩
    · intro k hk
      obtain ⟨j, rfl⟩ := ccxne_mask_bits k hk
      rw [Bool.eq_false_iff]
      intro hbit
      obtain ⟨a, -, ha⟩ := (h.negatedEnabled j).mp hbit
      exact hoff ⟨a, .inr ha⟩

theorem Channels.anyOn_of_busy (h : Channels timer s) (hbusy : s.areAllChannelsFree = false) :
    AnyOn s := by
  by_contra hoff
  rw [h.free_iff.mpr hoff] at hbusy
  cases hbusy

/-! ## The registers -/

theorem enable_bit (k : Nat) (ch : TimerChannel) :
    enable (bit k) ch = bit (k + ch.getChannelMul4) := bit_shiftLeft k _

theorem enable_cc1e (i : Fin 4) : enable timCcerCc1e (.channel i) = bit (4 * i) := by
  rw [timCcerCc1e, enable_bit, Nat.zero_add]
  rfl

theorem enable_cc1ne (i : Fin 4) : enable timCcerCc1ne (.negated i) = bit (4 * i + 2) := by
  rw [timCcerCc1ne, enable_bit, Nat.add_comm]
  rfl

/-- Writing a bit of `CCER` leaves the others. -/
theorem getLsbD_write (x : BitVec 32) (m k : Nat) (hm : m < 32) (on : Bool) :
    (if on then setBit x (bit m) else clearBit x (bit m)).getLsbD k =
      if k = m then on else x.getLsbD k := by
  cases on
  · by_cases hk : k = m <;> simp [getLsbD_clearBit hm, hk]
  · by_cases hk : k = m <;> simp [getLsbD_setBit hm, hk]

theorem setPolarity_even {m k : Nat} (hm : m < 32) (hk : k ≠ m) (x : BitVec 32) (low : Bool) :
    (setPolarity (bit m) (bit m) x low).getLsbD k = x.getLsbD k := by
  cases low <;> simp [setPolarity, getLsbD_setBit hm, getLsbD_clearBit hm, hk]

/-- Configuring an output leaves the enable bits, if the negated one is off. -/
theorem configOutputCompareChannel_even (x : BitVec 32) (i : Fin 4) (low lowN : Bool) {k : Nat}
    (hx : x.getLsbD (4 * i + 2) = false) (hk : k % 2 = 0) :
    (configOutputCompareChannel timer i low lowN x).getLsbD k = x.getLsbD k := by
  have hp : enable timCcerCc1p (.channel i) = bit (1 + 4 * i) := enable_bit 1 _
  have hnp : enable timCcerCc1np (.channel i) = bit (3 + 4 * i) := enable_bit 3 _
  have hne : enable timCcerCc1ne (.channel i) = bit (2 + 4 * i) := enable_bit 2 _
  simp only [configOutputCompareChannel, hp, hnp, hne]
  split
  · rw [getLsbD_clearBit (by omega), setPolarity_even (by omega) (by omega),
      setPolarity_even (by omega) (by omega)]
    by_cases hki : k = 2 + 4 * i
    · subst hki
      rw [Nat.add_comm, hx, Bool.false_and]
    · simp [hki]
  · exact setPolarity_even (by omega) (by omega) x low

/-- Configuring an input leaves the enable bits, if its own is off. -/
theorem configInputCompareChannel_even (x : BitVec 32) (i : Fin 4) (falling : Bool) {k : Nat}
    (hx : x.getLsbD (4 * i) = false) (hk : k % 2 = 0) :
    (configInputCompareChannel i falling x).getLsbD k = x.getLsbD k := by
  have hp : enable timCcerCc1p (.channel i) = bit (1 + 4 * i) := enable_bit 1 _
  have hnp : enable timCcerCc1np (.channel i) = bit (3 + 4 * i) := enable_bit 3 _
  have hx' : (clearBit x (bit (4 * i))).getLsbD k = x.getLsbD k := by
    rw [getLsbD_clearBit (by omega)]
    by_cases hki : k = 4 * i
    · subst hki
      rw [hx, Bool.false_and]
    · simp [hki]
  have hk1 : k ≠ 1 + 4 * i := by omega
  have hk3 : k ≠ 3 + 4 * i := by omega
  have h1 : 1 + 4 * i.val < 32 := by omega
  have h3 : 3 + 4 * i.val < 32 := by omega
  simp only [configInputCompareChannel, setPolarity, enable_cc1e, hp, hnp, clearBit_or]
  cases falling <;> simp [getLsbD_setBit h1, getLsbD_clearBit h1, getLsbD_clearBit h3, hk1, hk3, hx']

/-! ## Turning on and off -/

/-- The bookkeeping, and what it rests on. -/
structure Bookkept (timer : Timer n) (s : State n) : Prop extends Channels timer s where
  counter : s.counter = true ↔ AnyOn s
  moe : timer.isBreak = true → s.moe = true → AnyPwmOn timer s
  ready : s.panics = []
  initialized : ∀ a, s.positive a = true → (timer.object a).isDual = false → s.initialized a = true

theorem Bookkept.right (h : Bookkept timer s) : Right timer s :=
  ⟨h.enabled, h.negatedEnabled, h.channelState, h.channelNState, h.counter, h.moe, h.ready⟩

theorem anyOn_congr (hp : t.positive = s.positive) (hn : t.negative = s.negative) :
    AnyOn t ↔ AnyOn s := by
  rw [AnyOn, AnyOn, hp, hn]

theorem anyPwmOn_congr (hp : t.positive = s.positive) (hn : t.negative = s.negative) :
    AnyPwmOn timer t ↔ AnyPwmOn timer s := by
  rw [AnyPwmOn, AnyPwmOn, hp, hn]

/-- Where an output was turned on, what was on still is. -/
theorem Changed.still_on {b : Fin n} (c : Changed timer a p q s t) (hp : s.positive a = true → p = true)
    (hq : s.negative a = true → q = true) (hb : s.positive b = true ∨ s.negative b = true) :
    t.positive b = true ∨ t.negative b = true := by
  rw [c.positive, c.negative]
  by_cases hba : b = a
  · subst hba
    rw [Function.update_self, Function.update_self]
    exact hb.imp hp hq
  · rwa [Function.update_of_ne hba, Function.update_of_ne hba]

theorem Bookkept.turned_on (h : Bookkept timer s) (c : Changed timer a p q s t)
    (hon : p = true ∨ q = true) (hp : s.positive a = true → p = true)
    (hq : s.negative a = true → q = true)
    (hdual : q = true → (timer.object a).isDual = true) (hcounter : t.counter = true)
    (hmoe : (timer.object a).isInputCapture = true → t.moe = s.moe) (hpanics : t.panics = s.panics)
    (hinit : t.initialized = s.initialized)
    (ha : (timer.object a).isDual = false → s.initialized a = true) : Bookkept timer t := by
  have hona : t.positive a = true ∨ t.negative a = true := by
    rwa [c.positive, c.negative, Function.update_self, Function.update_self]
  refine ⟨h.toChannels.changed c hdual, ?_, fun hbreak hset => ?_, hpanics.trans h.ready, ?_⟩
  · exact iff_of_true hcounter ⟨a, hona⟩
  · cases hcap : (timer.object a).isInputCapture with
    | false => exact ⟨a, hcap, hona⟩
    | true =>
      obtain ⟨b, hb, honb⟩ := h.moe hbreak (hmoe hcap ▸ hset)
      exact ⟨b, hb, c.still_on hp hq honb⟩
  · intro b hb hbdual
    rw [hinit]
    by_cases hba : b = a
    · subst hba
      exact ha hbdual
    · rw [c.positive, Function.update_of_ne hba] at hb
      exact h.initialized b hb hbdual

theorem Bookkept.turned_off (h : Bookkept timer s) (c : Changed timer a false (s.negative a) s t)
    (hfree : t.areAllChannelsFree = true → t.counter = false ∧
      ((timer.object a).isInputCapture = false → timer.isBreak = true → t.moe = false))
    (hbusy : t.areAllChannelsFree = false → t.counter = s.counter)
    (hmoe : t.moe = true → s.moe = true) (hpanics : t.panics = s.panics)
    (hinit : t.initialized = s.initialized)
    (hleaves : (timer.object a).isInputCapture = false → LeavesPwm timer a s) :
    Bookkept timer t := by
  have hnegative : t.negative = s.negative := by rw [c.negative, Function.update_eq_self]
  have hchannels := h.toChannels.changed c (h.dual a)
  refine ⟨hchannels, ?_, fun hbreak hset => ?_, hpanics.trans h.ready, fun b hb => ?_⟩
  · cases hall : t.areAllChannelsFree with
    | true =>
      rw [(hfree hall).1]
      exact iff_of_false Bool.false_ne_true (hchannels.free_iff.mp hall)
    | false =>
      have hon := hchannels.anyOn_of_busy hall
      rw [hbusy hall]
      refine iff_of_true (h.counter.mpr ?_) hon
      obtain ⟨b, hb⟩ := hon
      refine ⟨b, ?_⟩
      rw [c.positive, hnegative] at hb
      by_cases hba : b = a
      · subst hba
        rw [Function.update_self] at hb
        exact .inr (hb.resolve_left Bool.false_ne_true)
      · rwa [Function.update_of_ne hba] at hb
  · cases hcap : (timer.object a).isInputCapture with
    | true =>
      obtain ⟨b, hb, hon⟩ := h.moe hbreak (hmoe hset)
      have hba : b ≠ a := by
        rintro rfl
        rw [hcap] at hb
        cases hb
      refine ⟨b, hb, ?_⟩
      rwa [c.positive, hnegative, Function.update_of_ne hba]
    | false =>
      cases hall : t.areAllChannelsFree with
      | true =>
        rw [(hfree hall).2 hcap hbreak] at hset
        cases hset
      | false =>
        have hon := hchannels.anyOn_of_busy hall
        have hany : AnyOn t ↔ AnyOn (withoutPositive a s) := anyOn_congr c.positive hnegative
        have hanyPwm : AnyPwmOn timer t ↔ AnyPwmOn timer (withoutPositive a s) :=
          anyPwmOn_congr c.positive hnegative
        exact hanyPwm.mpr (hleaves hcap hbreak (hany.mp hon))
  · rw [c.positive] at hb
    rw [hinit]
    by_cases hba : b = a
    · subst hba
      rw [Function.update_self] at hb
      cases hb
    · rw [Function.update_of_ne hba] at hb
      exact h.initialized b hb

/-! ## The outputs of `PWM` and `DualPWM` -/

theorem enableCounter_eq {u : State n} (hcounts : Counts timer s) (hu : u.counter = s.counter) :
    u.enableCounter timer = { u with counter := true } := by
  unfold enableCounter
  split
  · rename_i hslave
    split
    · rfl
    · rename_i htrigger
      rw [← hu.trans (hcounts hslave (by simpa using htrigger))]
  · rfl

theorem turnOnOutput_eq {array : StateArray} {cc1 : BitVec 32} {ch : TimerChannel}
    (hready : s.getState array ch = .ready) (hcounts : Counts timer s) :
    s.turnOnOutput timer array cc1 ch =
      { s.setState array ch .busy with
        ccer := setBit s.ccer (enable cc1 ch)
        moe := timer.isBreak || s.moe
        counter := true } := by
  have hmoe : ∀ u : State n, u.setMoe timer true = { u with moe := timer.isBreak || u.moe } := by
    intro u
    cases hbreak : timer.isBreak <;> simp [setMoe, hbreak]
  simp only [turnOnOutput, hready, ne_eq, not_true_eq_false, if_false]
  rw [hmoe, enableCounter_eq hcounts (by cases array <;> rfl)]
  cases array <;> rfl

theorem turnOffOutput_eq (timer : Timer n) (array : StateArray) (cc1 : BitVec 32) (ch : TimerChannel)
    (s : State n) (free : Bool)
    (hfree : areAllChannelsFree { s with ccer := clearBit s.ccer (enable cc1 ch) } = free) :
    s.turnOffOutput timer array cc1 ch =
      { s.setState array ch .ready with
        ccer := clearBit s.ccer (enable cc1 ch)
        moe := !(free && timer.isBreak) && s.moe
        counter := !free && s.counter } := by
  have hall : (setState array ch .ready
      { s with ccer := clearBit s.ccer (enable cc1 ch) }).areAllChannelsFree = free := by
    rw [← hfree]
    cases array <;> rfl
  simp only [turnOffOutput, hall]
  cases free with
  | false => cases array <;> rfl
  | true => cases hbreak : timer.isBreak <;> cases array <;> simp [setMoe, hbreak, setState]

theorem Changed.positive_of (hi : (timer.object a).channels = [i])
    (hcap : (timer.object a).isInputCapture = false) (h : Channels timer s)
    (hp : t.positive = Function.update s.positive a p) (hn : t.negative = s.negative)
    (hbits : ∀ k, t.ccer.getLsbD k = if k = 4 * i then p else s.ccer.getLsbD k)
    (hstate : t.channelState = Function.update s.channelState i (stateOf p))
    (hstateN : t.channelNState = s.channelNState) : Changed timer a p (s.negative a) s t := by
  have hmem : i ∈ (timer.object a).channels := hi ▸ List.mem_singleton_self i
  refine ⟨hp, by rw [hn, Function.update_eq_self], fun j => ?_, fun j => ?_, fun j => ?_, fun j => ?_,
    ?_⟩
  · rw [hbits, hi]
    have : 4 * j.val = 4 * i.val ↔ j ∈ [i] := by rw [List.mem_singleton]; omega
    simp only [this]
  · rw [hbits, if_neg (by omega)]
    split
    · rename_i hj
      exact h.own_negatedEnabled hj
    · rfl
  · rw [hstate, hi]
    by_cases hj : j = i
    · subst hj
      simp
    · simp [hj]
  · rw [hstateN]
    split
    · rename_i hj
      rw [h.own_channelNState hj, hcap, Bool.false_and, Bool.false_and]
    · rfl
  · rw [hbits, hbits, if_neg (by omega), if_neg (by omega)]
    exact ⟨rfl, rfl⟩

theorem Changed.negative_of (hi : (timer.object a).channels = [i])
    (hcap : (timer.object a).isInputCapture = false) (h : Channels timer s)
    (hp : t.positive = s.positive) (hn : t.negative = Function.update s.negative a q)
    (hbits : ∀ k, t.ccer.getLsbD k = if k = 4 * i + 2 then q else s.ccer.getLsbD k)
    (hstate : t.channelState = s.channelState)
    (hstateN : t.channelNState = Function.update s.channelNState i (stateOf q)) :
    Changed timer a (s.positive a) q s t := by
  refine ⟨by rw [hp, Function.update_eq_self], hn, fun j => ?_, fun j => ?_, fun j => ?_, fun j => ?_,
    ?_⟩
  · rw [hbits, if_neg (by omega)]
    split
    · rename_i hj
      exact h.own_enabled hj
    · rfl
  · rw [hbits, hi]
    have : 4 * j.val + 2 = 4 * i.val + 2 ↔ j ∈ [i] := by rw [List.mem_singleton]; omega
    simp only [this]
  · rw [hstate]
    split
    · rename_i hj
      exact h.own_channelState hj
    · rfl
  · rw [hstateN, hi, hcap, Bool.false_and, Bool.or_false]
    by_cases hj : j = i
    · subst hj
      simp
    · simp [hj]
  · rw [hbits, hbits, if_neg (by omega), if_neg (by omega)]
    exact ⟨rfl, rfl⟩

theorem getLsbD_turnOn (x : BitVec 32) {m : Nat} (hm : m < 32) (k : Nat) :
    (setBit x (bit m)).getLsbD k = if k = m then true else x.getLsbD k :=
  getLsbD_write x m k hm true

theorem getLsbD_turnOff (x : BitVec 32) {m : Nat} (hm : m < 32) (k : Nat) :
    (clearBit x (bit m)).getLsbD k = if k = m then false else x.getLsbD k :=
  getLsbD_write x m k hm false

/-- What `PWM` and `DualPWM` have in common. -/
structure Single (timer : Timer n) (a : Fin n) (i : Fin 4) : Prop where
  channels : (timer.object a).channels = [i]
  output : (timer.object a).isInputCapture = false

theorem Single.mem (hi : Single timer a i) : i ∈ (timer.object a).channels :=
  hi.channels ▸ List.mem_singleton_self i

/-- Turning on a positive output. -/
theorem Bookkept.positive_on (h : Bookkept timer s) (hi : Single timer a i)
    (hoff : s.positive a = false) (hcounts : Counts timer s)
    (hinit : (timer.object a).isDual = false → s.initialized a = true) :
    let u := s.turnOnOutput timer .channelState timCcerCc1e (.channel i)
    Bookkept timer { u with positive := Function.update u.positive a true } := by
  have hready : s.getState .channelState (.channel i) = .ready := by
    change s.channelState i = _
    rw [h.own_channelState hi.mem, hoff]
    rfl
  rw [turnOnOutput_eq hready hcounts, enable_cc1e]
  refine h.turned_on ?_ (.inl rfl) (fun _ => rfl) id (h.dual a) rfl (fun hcap => ?_) rfl rfl hinit
  · exact .positive_of hi.channels hi.output h.toChannels rfl rfl (getLsbD_turnOn s.ccer (by omega))
      rfl rfl
  · rw [hi.output] at hcap
    cases hcap

/-- Turning on a negative output. -/
theorem Bookkept.negative_on (h : Bookkept timer s) (hi : Single timer a i)
    (hdual : (timer.object a).isDual = true) (hoff : s.negative a = false)
    (hcounts : Counts timer s) :
    let u := s.turnOnOutput timer .channelNState timCcerCc1ne (.negated i)
    Bookkept timer { u with negative := Function.update u.negative a true } := by
  have hready : s.getState .channelNState (.negated i) = .ready := by
    change s.channelNState i = _
    rw [h.own_channelNState hi.mem, hoff, hi.output]
    rfl
  rw [turnOnOutput_eq hready hcounts, enable_cc1ne]
  refine h.turned_on ?_ (.inr rfl) id (fun _ => rfl) (fun _ => hdual) rfl (fun hcap => ?_) rfl rfl
    fun hsingle => ?_
  · exact .negative_of hi.channels hi.output h.toChannels rfl rfl (getLsbD_turnOn s.ccer (by omega))
      rfl rfl
  · rw [hi.output] at hcap
    cases hcap
  · rw [hdual] at hsingle
    cases hsingle

/-- Turning off a positive output. -/
theorem Bookkept.positive_off (h : Bookkept timer s) (hi : Single timer a i)
    (hleaves : LeavesPwm timer a s) :
    let u := s.turnOffOutput timer .channelState timCcerCc1e (.channel i)
    Bookkept timer { u with positive := Function.update u.positive a false } := by
  rw [turnOffOutput_eq timer .channelState timCcerCc1e (.channel i) s _ rfl, enable_cc1e]
  refine h.turned_off ?_ (fun hfree => ?_) (fun hbusy => ?_) (fun hset => ?_) rfl rfl fun _ => hleaves
  · exact .positive_of hi.channels hi.output h.toChannels rfl rfl (getLsbD_turnOff s.ccer (by omega))
      rfl rfl
  · change areAllChannelsFree { s with ccer := clearBit s.ccer (bit (4 * i)) } = true at hfree
    exact ⟨by simp [hfree], fun _ hbreak => by simp [hfree, hbreak]⟩
  · change areAllChannelsFree { s with ccer := clearBit s.ccer (bit (4 * i)) } = false at hbusy
    simp [hbusy]
  · exact (Bool.and_eq_true_iff.mp hset).2

/-! ## The inputs -/

theorem update_both (g : Fin 4 → ChannelState) (r f j : Fin 4) (v : ChannelState) :
    Function.update (Function.update g r v) f v j = if j ∈ [r, f] then v else g j := by
  by_cases hjf : j = f
  · subst hjf
    simp
  · by_cases hjr : j = r
    · subst hjr
      simp [hjf]
    · simp [hjf, hjr]

theorem Changed.input_of {r f : Fin 4} (hi : (timer.object a).channels = [r, f])
    (hcap : (timer.object a).isInputCapture = true) (h : Channels timer s)
    (hdual : (timer.object a).isDual = false)
    (hp : t.positive = Function.update s.positive a p) (hn : t.negative = s.negative)
    (hbits : ∀ k, t.ccer.getLsbD k =
      if k = 4 * f then p else if k = 4 * r then p else s.ccer.getLsbD k)
    (hstate : t.channelState =
      Function.update (Function.update s.channelState r (stateOf p)) f (stateOf p))
    (hstateN : t.channelNState =
      Function.update (Function.update s.channelNState r (stateOf p)) f (stateOf p)) :
    Changed timer a p (s.negative a) s t := by
  have hoff := h.negative_eq_false hdual
  refine ⟨hp, by rw [hn, Function.update_eq_self], fun j => ?_, fun j => ?_, fun j => ?_, fun j => ?_,
    ?_⟩
  · rw [hbits, hi]
    have hf : 4 * j.val = 4 * f.val ↔ j = f := by omega
    have hr : 4 * j.val = 4 * r.val ↔ j = r := by omega
    by_cases hjf : j = f
    · simp [hjf]
    · by_cases hjr : j = r <;> simp [hf, hr, hjf, hjr]
  · rw [hbits, if_neg (by omega), if_neg (by omega)]
    split
    · rename_i hj
      exact h.own_negatedEnabled hj
    · rfl
  · rw [hstate, hi, update_both]
  · rw [hstateN, hi, hoff, hcap, Bool.false_or, Bool.true_and, update_both]
  · rw [hbits, hbits]
    simp only [if_neg (show ¬ 16 = 4 * f.val by omega), if_neg (show ¬ 16 = 4 * r.val by omega),
      if_neg (show ¬ 20 = 4 * f.val by omega), if_neg (show ¬ 20 = 4 * r.val by omega), and_self]

theorem Channels.ready_of_off (h : Channels timer s) (hj : j ∈ (timer.object a).channels)
    (hp : s.positive a = false) (hn : s.negative a = false) : InputCapture.notReady j s = false := by
  rw [InputCapture.notReady, h.own_channelState hj, h.own_channelNState hj, hp, hn, Bool.and_false]
  rfl

theorem setChannel_bits (s : State n) (i : Fin 4) (on : Bool) (k : Nat) :
    (InputCapture.setChannel i on s).ccer.getLsbD k = if k = 4 * i then on else s.ccer.getLsbD k := by
  rw [InputCapture.setChannel, enable_cc1e]
  exact getLsbD_write s.ccer (4 * i) k (by omega) on

/-- Turning on a captured input that is initialized. -/
theorem Bookkept.input_on {r f : Fin 4} (h : Bookkept timer s)
    (ho : timer.object a = .inputCapture r f) (hoff : s.positive a = false)
    (hcounts : Counts timer s) (hinit : s.initialized a = true) :
    InputCapture.notReady r s = false ∧
      InputCapture.notReady f (InputCapture.setChannel r true s) = false ∧
      let u := (InputCapture.setChannel f true (InputCapture.setChannel r true s)).enableCounter timer
      Bookkept timer { u with positive := Function.update u.positive a true } := by
  have hdual : (timer.object a).isDual = false := by rw [ho]; rfl
  have hcap : (timer.object a).isInputCapture = true := by rw [ho]; rfl
  have hchannels : (timer.object a).channels = [r, f] := by rw [ho]; rfl
  have hne : f ≠ r := by
    have := timer.hasPins a
    rw [ho] at this
    exact this.symm
  have hnotReady : ∀ j ∈ [r, f], InputCapture.notReady j s = false := fun j hj =>
    h.ready_of_off (hchannels ▸ hj) hoff (h.negative_eq_false hdual)
  refine ⟨hnotReady r (by simp), ?_, ?_⟩
  · have hf := hnotReady f (by simp)
    simp only [InputCapture.notReady, InputCapture.setChannel, Function.update_of_ne hne] at hf ⊢
    exact hf
  · have hkeep : (InputCapture.setChannel f true (InputCapture.setChannel r true s)).counter =
        s.counter := rfl
    rw [enableCounter_eq hcounts hkeep]
    refine h.turned_on ?_ (.inl rfl) (fun _ => rfl) id (h.dual a) rfl (fun _ => rfl) rfl rfl
      fun _ => hinit
    refine .input_of hchannels hcap h.toChannels hdual rfl rfl (fun k => ?_) rfl rfl
    exact (setChannel_bits _ f true k).trans (by rw [setChannel_bits])

/-- Turning off a captured input. -/
theorem Bookkept.input_off {r f : Fin 4} (h : Bookkept timer s)
    (ho : timer.object a = .inputCapture r f) :
    Bookkept timer (InputCapture.turnOff a r f s) := by
  have hdual : (timer.object a).isDual = false := by rw [ho]; rfl
  have hcap : (timer.object a).isInputCapture = true := by rw [ho]; rfl
  have hchannels : (timer.object a).channels = [r, f] := by rw [ho]; rfl
  have hleaves : (timer.object a).isInputCapture = false → LeavesPwm timer a s := by
    intro hout
    rw [hcap] at hout
    cases hout
  have hbits : ∀ k, (InputCapture.setChannel f false (InputCapture.setChannel r false s)).ccer.getLsbD k =
      if k = 4 * f then false else if k = 4 * r then false else s.ccer.getLsbD k := fun k =>
    (setChannel_bits _ f false k).trans (by rw [setChannel_bits])
  unfold InputCapture.turnOff
  split
  · exact h
  · cases hall : (InputCapture.setChannel f false (InputCapture.setChannel r false s)).areAllChannelsFree with
    | true =>
      simp only [hall, if_true]
      refine h.turned_off ?_ (fun _ => ⟨rfl, fun hout => ?_⟩) (fun hbusy => ?_) id rfl rfl hleaves
      · exact .input_of hchannels hcap h.toChannels hdual rfl rfl hbits rfl rfl
      · rw [hcap] at hout
        cases hout
      · exact absurd (hall.symm.trans hbusy) Bool.noConfusion
    | false =>
      simp only [hall, Bool.false_eq_true, if_false]
      refine h.turned_off ?_ (fun hfree => ?_) (fun _ => rfl) id rfl rfl hleaves
      · exact .input_of hchannels hcap h.toChannels hdual rfl rfl hbits rfl rfl
      · exact absurd (hall.symm.trans hfree) Bool.noConfusion

/-! ## The configuration of an object -/

theorem Bookkept.configured {config : BitVec 32 → BitVec 32} (h : Bookkept timer s)
    (hconfig : s.initialized a = false →
      ∀ k, k % 2 = 0 → (config s.ccer).getLsbD k = s.ccer.getLsbD k) :
    Bookkept timer (initOutput a config s) := by
  unfold initOutput
  split
  · exact h
  · rename_i hinit
    have hbits := hconfig (by simpa using hinit)
    refine ⟨⟨fun j => ?_, fun j => ?_, h.channelState, h.channelNState, ?_, h.dual⟩, h.counter, h.moe,
      h.ready, fun b hb hdual => ?_⟩
    · rw [hbits _ (by omega)]
      exact h.enabled j
    · rw [hbits _ (by omega)]
      exact h.negatedEnabled j
    · rw [hbits 16 rfl, hbits 20 rfl]
      exact h.others
    · by_cases hba : b = a
      · subst hba
        exact Function.update_self ..
      · exact (Function.update_of_ne hba ..).trans (h.initialized b hb hdual)

theorem initOutput_initialized (config : BitVec 32 → BitVec 32) (s : State n) :
    (initOutput a config s).initialized a = true := by
  unfold initOutput
  split
  · assumption
  · exact Function.update_self ..

theorem initOutput_counter (config : BitVec 32 → BitVec 32) (s : State n) :
    (initOutput a config s).counter = s.counter := by
  unfold initOutput
  split <;> rfl

/-- An output is initialized while the negated one is off. -/
theorem Bookkept.output_configured {low lowN : Bool} (h : Bookkept timer s) (hi : Single timer a i)
    (hoff : s.initialized a = true ∨ s.negative a = false) :
    Bookkept timer (initOutput a (configOutputCompareChannel timer i low lowN) s) := by
  refine h.configured fun hinit k hk => configOutputCompareChannel_even s.ccer i low lowN ?_ hk
  rw [h.own_negatedEnabled hi.mem]
  exact hoff.resolve_left (by simp [hinit])

/-- An input is initialized while it is off. -/
theorem Bookkept.input_configured {r f : Fin 4} (h : Bookkept timer s)
    (ho : timer.object a = .inputCapture r f) : Bookkept timer (InputCapture.init a r f s) := by
  have hdual : (timer.object a).isDual = false := by rw [ho]; rfl
  have hoff : s.initialized a = false → s.positive a = false := by
    intro hinit
    cases hp : s.positive a with
    | false => rfl
    | true => exact absurd (h.initialized a hp hdual) (by simp [hinit])
  have hown : ∀ j ∈ [r, f], s.initialized a = false → s.ccer.getLsbD (4 * j) = false :=
    fun j hj hinit => (h.own_enabled (by rw [ho]; exact hj)).trans (hoff hinit)
  refine h.configured fun hinit k hk => ?_
  have hrising : ∀ k, k % 2 = 0 →
      (configInputCompareChannel r false s.ccer).getLsbD k = s.ccer.getLsbD k := fun k hk =>
    configInputCompareChannel_even s.ccer r false (hown r (by simp) hinit) hk
  rw [configInputCompareChannel_even _ f true _ hk, hrising k hk]
  rw [hrising _ (by omega), hown f (by simp) hinit]

/-! ## Runs -/

theorem Bookkept.turnOnPositive (h : Bookkept timer s) (hi : Single timer a i)
    (hdual : (timer.object a).isDual = true) (hcounts : Counts timer s) :
    Bookkept timer (DualPWM.turnOnPositive timer a i s) := by
  unfold DualPWM.turnOnPositive
  split
  · exact h
  · rename_i hoff
    refine h.positive_on hi (by simpa using hoff) hcounts fun hsingle => ?_
    rw [hdual] at hsingle
    cases hsingle

theorem Bookkept.turnOnNegative (h : Bookkept timer s) (hi : Single timer a i)
    (hdual : (timer.object a).isDual = true) (hcounts : Counts timer s) :
    Bookkept timer (DualPWM.turnOnNegative timer a i s) := by
  unfold DualPWM.turnOnNegative
  split
  · exact h
  · rename_i hoff
    exact h.negative_on hi hdual (by simpa using hoff) hcounts

theorem turnOnPositive_on : (DualPWM.turnOnPositive timer a i s).positive a = true := by
  unfold DualPWM.turnOnPositive
  split
  · assumption
  · exact Function.update_self ..

theorem Bookkept.turnOffPositive (h : Bookkept timer s) (hi : Single timer a i)
    (hleaves : s.positive a = true → LeavesPwm timer a s) :
    Bookkept timer (DualPWM.turnOffPositive timer a i s) := by
  unfold DualPWM.turnOffPositive
  split
  · exact h
  · rename_i hon
    exact h.positive_off hi (hleaves (by simpa using hon))

theorem turnOffPositive_negative :
    (DualPWM.turnOffPositive timer a i s).negative = s.negative := by
  unfold DualPWM.turnOffPositive
  split
  · rfl
  · rw [turnOffOutput_eq timer .channelState timCcerCc1e (.channel i) s _ rfl]
    rfl

theorem turnOffNegative_of_off (hoff : s.negative a = false) :
    DualPWM.turnOffNegative timer a i s = s := by
  rw [DualPWM.turnOffNegative, hoff]
  rfl

theorem counts_of_counter {u : State n} (hcounts : Counts timer s) (hu : u.counter = s.counter) :
    Counts timer u := by
  rwa [Counts, hu]

theorem Bookkept.pwm_turnOn {low lowN : Bool} (h : Bookkept timer s) (hi : Single timer a i)
    (hdual : (timer.object a).isDual = false) (hcounts : Counts timer s) :
    Bookkept timer (PWM.turnOn timer a i low lowN s) := by
  have hinit : Bookkept timer (PWM.init timer a i low lowN s) :=
    h.output_configured hi (.inr (h.negative_eq_false hdual))
  unfold PWM.turnOn
  dsimp only
  split
  · exact hinit
  · rename_i hoff
    exact hinit.positive_on hi (by simpa using hoff)
      (counts_of_counter hcounts (initOutput_counter _ s)) fun _ => initOutput_initialized _ s

theorem Bookkept.dual_turnOn {low lowN : Bool} (h : Bookkept timer s) (hi : Single timer a i)
    (hdual : (timer.object a).isDual = true) (hcounts : Counts timer s)
    (hoff : s.initialized a = true ∨ s.negative a = false) :
    Bookkept timer (DualPWM.turnOn timer a i low lowN s) := by
  have hinit : Bookkept timer (DualPWM.initializeOutputs timer a i low lowN s) :=
    h.output_configured hi hoff
  have hpos := hinit.turnOnPositive hi hdual (counts_of_counter hcounts (initOutput_counter _ s))
  -- the counter runs once the positive output is on
  exact hpos.turnOnNegative hi hdual fun _ _ => hpos.counter.mpr ⟨a, .inl turnOnPositive_on⟩

theorem Bookkept.dual_turnOff (h : Bookkept timer s) (hi : Single timer a i)
    (hoff : s.negative a = false) (hleaves : s.positive a = true → LeavesPwm timer a s) :
    Bookkept timer (DualPWM.turnOff timer a i s) := by
  have hoff' : (DualPWM.turnOffPositive timer a i s).negative a = false := by
    rw [turnOffPositive_negative]
    exact hoff
  rw [DualPWM.turnOff, turnOffNegative_of_off hoff']
  exact h.turnOffPositive hi hleaves

theorem Bookkept.input_turnOn {r f : Fin 4} (h : Bookkept timer s)
    (ho : timer.object a = .inputCapture r f) (hcounts : Counts timer s) :
    Bookkept timer (InputCapture.turnOn timer a r f s) := by
  have hinit := h.input_configured ho
  unfold InputCapture.turnOn
  dsimp only
  split
  · exact hinit
  · rename_i hoff
    obtain ⟨hr, hf, hon⟩ := hinit.input_on ho (by simpa using hoff)
      (counts_of_counter hcounts (initOutput_counter _ s)) (initOutput_initialized _ s)
    simp only [hr, hf, Bool.false_eq_true, if_false]
    exact hon

/-- A call that `Meets` allows keeps the bookkeeping. -/
theorem Bookkept.step {e : Fin n × Call} (h : Bookkept timer s) (hok : Meets timer s e)
    (hs : Step timer s e t) : Bookkept timer t := by
  obtain ⟨a, call⟩ := e
  cases ho : timer.object a with
  | pwm i low lowN =>
    have hi : Single timer a i := ⟨by rw [ho]; rfl, by rw [ho]; rfl⟩
    have hdual : (timer.object a).isDual = false := by rw [ho]; rfl
    cases call <;> simp only [Step, Outputs.step, ho, Option.some.injEq, reduceCtorEq] at hs
    case turnOn => exact hs ▸ h.pwm_turnOn hi hdual hok.1
    case turnOff => exact hs ▸ h.turnOffPositive hi (hok.2 hi.output)
  | dualPwm i low lowN =>
    have hi : Single timer a i := ⟨by rw [ho]; rfl, by rw [ho]; rfl⟩
    have hdual : (timer.object a).isDual = true := by rw [ho]; rfl
    cases call <;> simp only [Step, Outputs.step, ho, Option.some.injEq] at hs
    case turnOn => exact hs ▸ h.dual_turnOn hi hdual hok.1 (hok.2 hdual)
    case turnOff => exact hs ▸ h.dual_turnOff hi hok.1 (hok.2 hi.output)
    case turnOnPositive => exact hs ▸ h.turnOnPositive hi hdual hok
    case turnOnNegative => exact hs ▸ h.turnOnNegative hi hdual hok
    case turnOffPositive => exact hs ▸ h.turnOffPositive hi hok
    case turnOffNegative => rwa [← hs, turnOffNegative_of_off hok]
  | inputCapture r f =>
    cases call <;> simp only [Step, Outputs.step, ho, Option.some.injEq, reduceCtorEq] at hs
    case turnOn => exact hs ▸ h.input_turnOn ho hok.1
    case turnOff => exact hs ▸ h.input_off ho

/-- Nothing is on. -/
theorem bookkept_start (timer : Timer n) : Bookkept timer {} where
  enabled j := by simp
  negatedEnabled j := by simp
  channelState j := by simp
  channelNState j := by simp
  others := by simp
  dual a ha := by cases ha
  counter := by simp [AnyOn]
  moe _ hset := by cases hset
  ready := rfl
  initialized a ha := by cases ha

/-- A `DualPWM` and an `InputCapture` on an advanced timer. -/
def advancedTimer : Timer 2 where
  isBreak := true
  isSlave := true
  slaveTrigger := false
  isCcxn i := decide (i.val < 3)
  object a := if a = 0 then .dualPwm 0 false false else .inputCapture 1 2
  hasPins := by decide
  disjoint := by decide

end StLib.Timers.Outputs
