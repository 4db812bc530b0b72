import Mathlib.Algebra.Order.Field.Rat
import Mathlib.Data.List.Induction
import Mathlib.Logic.Function.Basic
import Mathlib.Tactic.Linarith
import Mathlib.Tactic.NormNum
import StLib.Base.FinLiterals

/-! # Input capture

`TIM_IC_CaptureCallback` and `TIM_InterruptCallback`, of one `InputCapture` of a timer. Numbers are
rational where the code has `float`. -/
namespace StLib.Timers.InputCapture

/-- The registers that stay as they are; `clock` is `get_timer_frequency`. -/
structure Timer where
  arr : BitVec 32
  psc : BitVec 16
  clock : BitVec 32

/-- The channels are different ones, which `get_input_capture` asserts. -/
structure Channels where
  rising : Fin 4
  falling : Fin 4
  distinct : rising ≠ falling

/-- The values are those of `init`. -/
structure InputCaptureInfo where
  channels : Channels
  valueRising : BitVec 32 := 0
  valueFalling : BitVec 32 := 0
  period : BitVec 32 := 0
  dutyCycle : ℚ := 0
  frequency : BitVec 32 := 0

/-- A division by zero has no result. -/
def divide (a b : BitVec 32) : Option (BitVec 32) := if b = 0 then none else some (a / b)

def divideFloat (a b : ℚ) : Option ℚ := if b = 0 then none else some (a / b)

/-- What both branches of the callback take for the counts since the last rising edge. -/
def sinceRising (timer : Timer) (info : InputCaptureInfo) (current : BitVec 32) : BitVec 32 :=
  if info.valueRising ≤ current then current - info.valueRising
  else
    let maxCount := timer.arr - 1
    current + maxCount - info.valueRising

/-- The rising branch, of the counts that it takes for the period. -/
def record (timer : Timer) (info : InputCaptureInfo) (period : BitVec 32) : Option InputCaptureInfo :=
  if period ≠ 0 ∧ info.valueFalling < period then do
    let refClock ← divide timer.clock (timer.psc.setWidth 32 + 1)
    let frequency ← divide refClock period
    let dutyCycle ← divideFloat (info.valueFalling.toNat * 100) period.toNat
    some { info with period, frequency, dutyCycle }
  else some info

/-- `TIM_IC_CaptureCallback`; `current` is what the channel has captured. -/
def captureCallback (timer : Timer) (channel : Fin 4) (current : BitVec 32) (info : InputCaptureInfo) :
    Option InputCaptureInfo :=
  if info.channels.rising = channel then do
    let info ← record timer info (sinceRising timer info current)
    some { info with valueRising := current }
  else if info.channels.falling = channel then
    let fallingValue := sinceRising timer info current
    some (if fallingValue < info.period then { info with valueFalling := fallingValue } else info)
  else some info

/-- `ccif` are the flags of the channels in `SR`. -/
structure State where
  info : InputCaptureInfo
  ccr : Fin 4 → BitVec 32
  ccif : Fin 4 → Bool

def interruptChannel (timer : Timer) (s : State) (ch : Fin 4) : Option State :=
  if s.ccif ch = true then do
    let info ← captureCallback timer ch (s.ccr ch) s.info
    some { s with info, ccif := Function.update s.ccif ch false }
  else some s

/-- `TIM_InterruptCallback`; the update flag that it sees to first is for a callback of the user. -/
def interruptCallback (timer : Timer) (s : State) : Option State :=
  [0, 1, 2, 3].foldlM (interruptChannel timer) s

/-! ## Edges -/

/-- An edge, with the counts since the counter started at zero. -/
inductive Edge
  | rising (time : Nat)
  | falling (time : Nat)

/-- The counter runs from 0 to `ARR`. -/
def Timer.counter (timer : Timer) (time : Nat) : BitVec 32 :=
  BitVec.ofNat 32 (time % (timer.arr.toNat + 1))

def capture (timer : Timer) (channel : Fin 4) (time : Nat) (s : State) : State :=
  { s with
    ccr := Function.update s.ccr channel (timer.counter time)
    ccif := Function.update s.ccif channel true }

/-- An edge is captured, and the interrupt comes. -/
def edge (timer : Timer) (s : State) : Edge → Option State
  | .rising time => interruptCallback timer (capture timer s.info.channels.rising time s)
  | .falling time => interruptCallback timer (capture timer s.info.channels.falling time s)

def run (timer : Timer) (edges : List Edge) (s : State) : Option State := edges.foldlM (edge timer) s

/-- What `turn_on` starts with. -/
def start (channels : Channels) (ccr : Fin 4 → BitVec 32) : State where
  info := { channels }
  ccr
  ccif := fun _ => false

/-- A pulse from one rising edge to the next. -/
structure Pulse where
  high : Nat
  low : Nat

def Pulse.period (p : Pulse) : Nat := p.high + p.low

/-- The time of the rising edge after some pulses. -/
def after (first : Nat) (pulses : List Pulse) : Nat := first + (pulses.map Pulse.period).sum

/-- The edges of pulses, without the first rising one. -/
def edges (first : Nat) : List Pulse → List Edge
  | [] => []
  | p :: pulses => .falling (first + p.high) :: .rising (first + p.period) :: edges (first + p.period) pulses

/-- Edges that alternate: it may start with a falling one, and end with one. -/
structure Train where
  lead : Option Nat
  first : Nat
  lead_le : ∀ time ∈ lead, time ≤ first
  pulses : List Pulse
  trail : Option Nat

/-- Up to the rising edge after some of the pulses. -/
def Train.upto (train : Train) (pulses : List Pulse) : List Edge :=
  (train.lead.map Edge.falling).toList ++ .rising train.first :: edges train.first pulses

def Train.edges (train : Train) : List Edge :=
  train.upto train.pulses ++
    (train.trail.map fun high => Edge.falling (after train.first train.pulses + high)).toList

/-- What is recorded of a pulse. -/
structure Measured (p : Pulse) (info : InputCaptureInfo) : Prop where
  period : info.period.toNat = p.period
  duty : info.dutyCycle = 100 * p.high / p.period

/-- From the third rising edge on, every pulse is measured. -/
def Measures (timer : Timer) (train : Train) (s : State) : Prop :=
  (∃ t, run timer train.edges s = some t) ∧
  ∀ before p, before ++ [p] <+: train.pulses → before ≠ [] →
    ∃ t, run timer (train.upto (before ++ [p])) s = some t ∧ Measured p t.info

/-- The counter does not wrap between two rising edges, and no pulse is high for as long as the
period before it or all of its own. -/
structure Meets (timer : Timer) (train : Train) : Prop where
  noWrap : ∀ before p, before ++ [p] <+: train.pulses →
    after train.first before % (timer.arr.toNat + 1) + p.period < timer.arr.toNat + 1
  low : ∀ p ∈ train.pulses, 0 < p.low
  high : ∀ before p q, before ++ [p, q] <+: train.pulses → q.high < p.period

/-! ## One edge -/

variable {timer : Timer} {info : InputCaptureInfo}

theorem divide_eq {a b : BitVec 32} (h : b ≠ 0) : divide a b = some (a / b) := if_neg h

theorem psc_succ_ne (timer : Timer) : timer.psc.setWidth 32 + 1 ≠ 0 := by
  have hpsc := timer.psc.isLt
  intro h
  have hzero := congrArg BitVec.toNat h
  rw [BitVec.toNat_add, BitVec.toNat_setWidth] at hzero
  simp at hzero
  omega

theorem counter_toNat (timer : Timer) (time : Nat) :
    (timer.counter time).toNat = time % (timer.arr.toNat + 1) := by
  have hmod : time % (timer.arr.toNat + 1) < timer.arr.toNat + 1 := Nat.mod_lt _ (Nat.succ_pos _)
  have harr := timer.arr.isLt
  exact Nat.mod_eq_of_lt (by omega)

/-- Where the counter does not wrap, what is taken is what has passed. -/
theorem sinceRising_eq {time counts : Nat} (h : info.valueRising = timer.counter time)
    (hwrap : time % (timer.arr.toNat + 1) + counts < timer.arr.toNat + 1) :
    (sinceRising timer info (timer.counter (time + counts))).toNat = counts := by
  have hnow : (time + counts) % (timer.arr.toNat + 1) = time % (timer.arr.toNat + 1) + counts := by
    rw [Nat.add_mod, Nat.mod_eq_of_lt (a := counts) (by omega), Nat.mod_eq_of_lt hwrap]
  have hle : info.valueRising ≤ timer.counter (time + counts) := by
    rw [h, BitVec.le_def, counter_toNat, counter_toNat, hnow]
    exact Nat.le_add_right _ _
  rw [sinceRising, if_pos hle, h, BitVec.toNat_sub_of_le (h ▸ hle), counter_toNat, counter_toNat, hnow]
  exact Nat.add_sub_cancel_left ..

theorem record_eq {period : BitVec 32} (h : info.valueFalling < period) :
    record timer info period = some { info with
      period
      frequency := timer.clock / (timer.psc.setWidth 32 + 1) / period
      dutyCycle := info.valueFalling.toNat * 100 / period.toNat } := by
  have hpos : 0 < period.toNat := Nat.zero_lt_of_lt (BitVec.lt_def.mp h)
  have hne : period ≠ 0 := fun hzero => absurd (hzero ▸ hpos) (lt_irrefl 0)
  have hcast : (period.toNat : ℚ) ≠ 0 := by exact_mod_cast hpos.ne'
  rw [record, if_pos ⟨hne, h⟩, divide_eq (psc_succ_ne timer), Option.bind_eq_bind, Option.bind_some,
    divide_eq hne, Option.bind_eq_bind, Option.bind_some, divideFloat, if_neg hcast]
  rfl

/-- Nothing is divided by zero, and the last pulse stays. -/
theorem record_some (timer : Timer) (info : InputCaptureInfo) (period : BitVec 32) :
    ∃ recorded, record timer info period = some recorded ∧ recorded.channels = info.channels ∧
      recorded.valueFalling = info.valueFalling := by
  by_cases h : info.valueFalling < period
  · exact ⟨_, record_eq h, rfl, rfl⟩
  · exact ⟨info, if_neg fun hboth => h hboth.2, rfl, rfl⟩

theorem captureCallback_rising (timer : Timer) (info : InputCaptureInfo) (current : BitVec 32) :
    captureCallback timer info.channels.rising current info =
      (record timer info (sinceRising timer info current)).map fun info =>
        { info with valueRising := current } := by
  rw [captureCallback, if_pos rfl]
  cases record timer info (sinceRising timer info current) <;> rfl

theorem captureCallback_falling (timer : Timer) (info : InputCaptureInfo) (current : BitVec 32) :
    captureCallback timer info.channels.falling current info =
      some (if sinceRising timer info current < info.period then
        { info with valueFalling := sinceRising timer info current } else info) := by
  rw [captureCallback, if_neg info.channels.distinct, if_pos rfl]

/-- The state after the callback for a capture. -/
def handled (timer : Timer) (channel : Fin 4) (time : Nat) (s : State) : Option State :=
  (captureCallback timer channel (timer.counter time) s.info).map fun info =>
    { info, ccr := Function.update s.ccr channel (timer.counter time), ccif := fun _ => false }

theorem foldlM_quiet {s : State} (hquiet : s.ccif = fun _ => false) (channels : List (Fin 4)) :
    channels.foldlM (interruptChannel timer) s = some s := by
  induction channels with
  | nil => rfl
  | cons ch channels ih =>
    have hskip : interruptChannel timer s ch = some s := by
      rw [interruptChannel, hquiet, if_neg Bool.false_ne_true]
    rw [List.foldlM_cons, hskip]
    exact ih

theorem foldlM_capture {s : State} (hquiet : s.ccif = fun _ => false) (channel : Fin 4) (time : Nat)
    (channels : List (Fin 4)) (hmem : channel ∈ channels) :
    channels.foldlM (interruptChannel timer) (capture timer channel time s) =
      handled timer channel time s := by
  have hset : (capture timer channel time s).ccif = Function.update (fun _ => false) channel true := by
    rw [← hquiet]
    rfl
  induction channels with
  | nil => exact absurd hmem (List.not_mem_nil)
  | cons ch channels ih =>
    rw [List.foldlM_cons, interruptChannel, hset]
    by_cases hch : ch = channel
    · subst hch
      have hccr : (capture timer ch time s).ccr ch = timer.counter time := Function.update_self ..
      rw [if_pos (Function.update_self ..), hccr, handled, Function.update_idem, Function.update_eq_self_iff.mpr rfl]
      cases hcallback : captureCallback timer ch (timer.counter time) s.info with
      | none =>
        change (captureCallback timer ch (timer.counter time) s.info >>= _) >>= _ = _
        rw [hcallback]
        rfl
      | some info =>
        change (captureCallback timer ch (timer.counter time) s.info >>= _) >>= _ = _
        rw [hcallback]
        exact foldlM_quiet rfl channels
    · rw [Function.update_of_ne hch, if_neg Bool.false_ne_true]
      exact ih ((List.mem_cons.mp hmem).resolve_left (Ne.symm hch))

/-- The interrupt of one capture is the callback of its channel. -/
theorem interrupt_capture {s : State} (hquiet : s.ccif = fun _ => false) (channel : Fin 4) (time : Nat) :
    interruptCallback timer (capture timer channel time s) = handled timer channel time s :=
  foldlM_capture hquiet channel time _ (by revert channel; decide)

/-! ## One pulse -/

/-- The last rising edge was at this time. -/
structure Rose (timer : Timer) (time : Nat) (s : State) : Prop where
  quiet : s.ccif = fun _ => false
  valueRising : s.info.valueRising = timer.counter time

/-- Every rising edge is handled. -/
theorem edge_rising (timer : Timer) {s : State} (hquiet : s.ccif = fun _ => false) (time : Nat) :
    ∃ t, edge timer s (.rising time) = some t ∧ Rose timer time t ∧
      t.info.valueFalling = s.info.valueFalling := by
  obtain ⟨recorded, hrecord, -, hfalling⟩ :=
    record_some timer s.info (sinceRising timer s.info (timer.counter time))
  rw [edge, interrupt_capture hquiet, handled, captureCallback_rising, hrecord]
  exact ⟨_, rfl, ⟨rfl, rfl⟩, hfalling⟩

/-- Every falling edge is. -/
theorem edge_falling (timer : Timer) {s : State} (hquiet : s.ccif = fun _ => false) (time : Nat) :
    ∃ t, edge timer s (.falling time) = some t ∧ t.ccif = (fun _ => false) ∧
      t.info = if sinceRising timer s.info (timer.counter time) < s.info.period then
        { s.info with valueFalling := sinceRising timer s.info (timer.counter time) } else s.info := by
  rw [edge, interrupt_capture hquiet, handled, captureCallback_falling]
  exact ⟨_, rfl, rfl, rfl⟩

section Pulse

variable {time : Nat} {p : Pulse} {s : State} (h : Rose timer time s)
include h

/-- The high time is kept if it is shorter than the period that is recorded. -/
theorem Rose.falling (hwrap : time % (timer.arr.toNat + 1) + p.period < timer.arr.toNat + 1) :
    ∃ t, edge timer s (.falling (time + p.high)) = some t ∧ Rose timer time t ∧
      (t.info.valueFalling = s.info.valueFalling ∨ t.info.valueFalling.toNat = p.high) ∧
      (p.high < s.info.period.toNat → t.info.valueFalling.toNat = p.high) := by
  have hhigh : time % (timer.arr.toNat + 1) + p.high < timer.arr.toNat + 1 := by
    rw [Pulse.period] at hwrap
    omega
  have hcounts := sinceRising_eq h.valueRising hhigh
  obtain ⟨t, ht, hquiet, hinfo⟩ := edge_falling timer h.quiet (time + p.high)
  refine ⟨t, ht, ?_⟩
  split at hinfo
  · have hkept : t.info.valueFalling.toNat = p.high := by
      rw [hinfo]
      exact hcounts
    exact ⟨⟨hquiet, hinfo ▸ h.valueRising⟩, .inr hkept, fun _ => hkept⟩
  · rename_i hnot
    rw [BitVec.lt_def, hcounts] at hnot
    exact ⟨⟨hquiet, hinfo ▸ h.valueRising⟩, .inl (congrArg _ hinfo), fun hless => absurd hless hnot⟩

/-- The pulse is recorded that ends, with what is kept of its high time. -/
theorem Rose.rising (hwrap : time % (timer.arr.toNat + 1) + p.period < timer.arr.toNat + 1)
    (hless : s.info.valueFalling.toNat < p.period) :
    ∃ t, edge timer s (.rising (time + p.period)) = some t ∧ Rose timer (time + p.period) t ∧
      t.info.period.toNat = p.period ∧
      t.info.dutyCycle = s.info.valueFalling.toNat * 100 / p.period := by
  have hcounts := sinceRising_eq h.valueRising hwrap
  have hlt : s.info.valueFalling < sinceRising timer s.info (timer.counter (time + p.period)) := by
    rw [BitVec.lt_def, hcounts]
    exact hless
  rw [edge, interrupt_capture h.quiet, handled, captureCallback_rising, record_eq hlt]
  refine ⟨_, rfl, ⟨rfl, rfl⟩, hcounts, ?_⟩
  change (s.info.valueFalling.toNat * 100 / _ : ℚ) = _
  rw [hcounts]

end Pulse

/-! ## Every train -/

theorem after_snoc (first : Nat) (before : List Pulse) (p : Pulse) :
    after first (before ++ [p]) = after first before + p.period := by
  rw [after, List.map_append, List.sum_append, after, Nat.add_assoc]
  rfl

theorem edges_snoc (first : Nat) (before : List Pulse) (p : Pulse) :
    edges first (before ++ [p]) = edges first before ++
      [.falling (after first before + p.high), .rising (after first before + p.period)] := by
  induction before generalizing first with
  | nil => rfl
  | cons q before ih =>
    have hafter : after (first + q.period) before = after first (q :: before) := by
      rw [after, after, List.map_cons, List.sum_cons, Nat.add_assoc]
    rw [List.cons_append, edges, ih, hafter]
    rfl

theorem run_append (timer : Timer) (before rest : List Edge) (s : State) :
    run timer (before ++ rest) s = (run timer before s).bind (run timer rest) :=
  List.foldlM_append

/-- The first rising edge, after a falling one or not. -/
theorem run_first (timer : Timer) (channels : Channels) (ccr : Fin 4 → BitVec 32) (lead : Option Nat)
    (first : Nat) :
    ∃ s, run timer ((lead.map Edge.falling).toList ++ [.rising first]) (start channels ccr) = some s ∧
      Rose timer first s ∧ s.info.valueFalling = 0 := by
  cases lead with
  | none =>
    obtain ⟨s, hs, hrose, hfalling⟩ := edge_rising timer (s := start channels ccr) rfl first
    exact ⟨s, by rw [Option.map_none, Option.toList_none, List.nil_append, run, List.foldlM_cons, hs]; rfl,
      hrose, hfalling⟩
  | some time =>
    obtain ⟨s, hs, hquiet, hinfo⟩ := edge_falling timer (s := start channels ccr) rfl time
    obtain ⟨t, ht, hrose, hfalling⟩ := edge_rising timer hquiet first
    have hsame : s.info = (start channels ccr).info := hinfo.trans (if_neg BitVec.not_lt_zero)
    refine ⟨t, ?_, hrose, hfalling.trans (by rw [hsame]; rfl)⟩
    change (edge timer _ _ >>= fun s => edge timer s _ >>= fun t => some t) = _
    rw [hs]
    change (edge timer s _ >>= fun t => some t) = _
    rw [ht]
    rfl

/-- The state after the pulses that are behind. -/
structure Counted (timer : Timer) (first : Nat) (pulses : List Pulse) (s : State) : Prop where
  rose : Rose timer (after first pulses) s
  fresh : pulses = [] → s.info.valueFalling = 0
  recorded : ∀ before p, pulses = before ++ [p] → s.info.period.toNat = p.period
  measured : ∀ before p, pulses = before ++ [p] → before ≠ [] → Measured p s.info

section Train

variable {train : Train} (hmeets : Meets timer train)
include hmeets

/-- What is kept of a pulse's high time is short enough for its period; it is the high time itself
where a pulse has been recorded before. -/
theorem Meets.falling {before : List Pulse} {p : Pulse} (hbefore : before ++ [p] <+: train.pulses)
    {s : State} (h : Counted timer train.first before s) :
    ∃ t, edge timer s (.falling (after train.first before + p.high)) = some t ∧
      Rose timer (after train.first before) t ∧ t.info.valueFalling.toNat < p.period ∧
      (before ≠ [] → t.info.valueFalling.toNat = p.high) := by
  obtain ⟨t, ht, hrose, hkept, hhigh⟩ := h.rose.falling (hmeets.noWrap before p hbefore)
  have hlow : p.high < p.period :=
    Nat.lt_add_of_pos_right (hmeets.low p (hbefore.subset (List.mem_append_right _ (List.mem_singleton_self p))))
  refine ⟨t, ht, hrose, ?_⟩
  rcases List.eq_nil_or_concat before with rfl | ⟨earlier, q, hlast⟩
  · refine ⟨?_, fun hne => absurd rfl hne⟩
    rcases hkept with hold | hnew
    · rw [hold, h.fresh rfl]
      exact Nat.zero_lt_of_lt hlow
    · exact hnew ▸ hlow
  · rw [List.concat_eq_append] at hlast
    subst hlast
    rw [List.append_assoc] at hbefore
    have hless := hmeets.high earlier q p hbefore
    rw [← h.recorded earlier q rfl] at hless
    exact ⟨(hhigh hless).symm ▸ hlow, fun _ => hhigh hless⟩

theorem Meets.step {before : List Pulse} {p : Pulse} (hbefore : before ++ [p] <+: train.pulses)
    {s : State} (h : Counted timer train.first before s) :
    ∃ t, run timer [.falling (after train.first before + p.high), .rising (after train.first before + p.period)] s =
      some t ∧ Counted timer train.first (before ++ [p]) t := by
  obtain ⟨u, hu, hrose, hless, hkept⟩ := hmeets.falling hbefore h
  obtain ⟨t, ht, hnext, hperiod, hduty⟩ := hrose.rising (hmeets.noWrap before p hbefore) hless
  refine ⟨t, ?_, ⟨after_snoc .. ▸ hnext, fun hnil => absurd hnil (by simp), ?_, ?_⟩⟩
  · change (edge timer s _ >>= fun s => edge timer s _ >>= fun t => some t) = _
    rw [hu]
    change (edge timer u _ >>= fun t => some t) = _
    rw [ht]
    rfl
  · intro earlier q heq
    obtain ⟨-, hq⟩ := List.append_inj' heq rfl
    obtain rfl := List.singleton_inj.mp hq
    exact hperiod
  · intro earlier q heq hne
    obtain ⟨rfl, hq⟩ := List.append_inj' heq rfl
    obtain rfl := List.singleton_inj.mp hq
    refine ⟨hperiod, ?_⟩
    rw [hduty, hkept hne, mul_comm]

theorem Meets.run {pulses : List Pulse} (hbefore : pulses <+: train.pulses) {s : State}
    (h : Counted timer train.first [] s) :
    ∃ t, run timer (InputCapture.edges train.first pulses) s = some t ∧
      Counted timer train.first pulses t := by
  induction pulses using List.reverseRecOn with
  | nil => exact ⟨s, rfl, h⟩
  | append_singleton before p ih =>
    obtain ⟨u, hu, hcounted⟩ := ih ((List.prefix_append before [p]).trans hbefore)
    obtain ⟨t, ht, hnext⟩ := hmeets.step hbefore hcounted
    exact ⟨t, by rw [edges_snoc, run_append, hu]; exact ht, hnext⟩

theorem Meets.upto (channels : Channels) (ccr : Fin 4 → BitVec 32) {pulses : List Pulse}
    (hbefore : pulses <+: train.pulses) :
    ∃ t, InputCapture.run timer (train.upto pulses) (start channels ccr) = some t ∧
      Counted timer train.first pulses t := by
  obtain ⟨s, hs, hrose, hfresh⟩ := run_first timer channels ccr train.lead train.first
  obtain ⟨t, ht, hcounted⟩ := hmeets.run hbefore
    (s := s) ⟨hrose, fun _ => hfresh, fun _ _ heq => by simp at heq, fun _ _ heq => by simp at heq⟩
  refine ⟨t, ?_, hcounted⟩
  rw [Train.upto, ← List.singleton_append, ← List.append_assoc, run_append, hs]
  exact ht

end Train

/-- A counter of 100, and three edges that rise. -/
def sample (first : Nat) : Train where
  lead := none
  first
  lead_le := nofun
  pulses := [⟨10, 20⟩, ⟨5, 25⟩]
  trail := none

def sampleTimer : Timer := ⟨99, 0, 1000000⟩

theorem meets_sample : Meets sampleTimer (sample 10) where
  noWrap := by
    intro before p h
    rcases before with _ | ⟨q, _ | ⟨r, before⟩⟩
    · obtain ⟨rfl, -⟩ := List.cons_prefix_cons.mp h
      decide
    · obtain ⟨rfl, hrest⟩ := List.cons_prefix_cons.mp h
      obtain ⟨rfl, -⟩ := List.cons_prefix_cons.mp hrest
      decide
    · exact absurd h.length_le (by simp [sample])
  low := by
    intro p h
    simp only [sample, List.mem_cons, List.not_mem_nil, or_false] at h
    rcases h with rfl | rfl <;> decide
  high := by
    intro before p q h
    rcases before with _ | ⟨r, before⟩
    · obtain ⟨rfl, hrest⟩ := List.cons_prefix_cons.mp h
      obtain ⟨rfl, -⟩ := List.cons_prefix_cons.mp hrest
      decide
    · exact absurd h.length_le (by simp [sample])

end StLib.Timers.InputCapture
