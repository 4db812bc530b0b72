import StLib.Timers.Correspondence

/-! # The wrapper of a timer and the timer behind it

`TimerWrapper.hpp` takes what it knows of its timer from the request of its device;
`TimerDomain::get_timer_frequency` and `rcc_enable_timer` go by the timer. What a timer can
do is the hardware's and a parameter here. -/
namespace StLib.Timers.Clocks

open Model
open Allocation
open AllocationSafety
open Correspondence

inductive Apb
  | apb1
  | apb2
deriving DecidableEq

/-- The registers of the clock tree that are read, and what the HAL makes of the others. -/
structure Rcc where
  d2cfgr : BitVec 32
  pclk1 : BitVec 32
  pclk2 : BitVec 32

namespace Rcc

def d2ppre1 : BitVec 32 := 0x7#32 <<< 4

def d2ppre2 : BitVec 32 := 0x7#32 <<< 8

def hclkDiv1 : BitVec 32 := 0

/-- `HAL_RCC_GetPCLK1Freq`, twice that unless `HCLK` is not divided. -/
def apb1Frequency (rcc : Rcc) : BitVec 32 :=
  if rcc.d2cfgr &&& d2ppre1 ≠ hclkDiv1 then rcc.pclk1 * 2 else rcc.pclk1

/-- `HAL_RCC_GetPCLK2Freq`, twice that unless `HCLK` is not divided. -/
def apb2Frequency (rcc : Rcc) : BitVec 32 :=
  if rcc.d2cfgr &&& d2ppre2 ≠ hclkDiv1 then rcc.pclk2 * 2 else rcc.pclk2

def frequency (rcc : Rcc) : Apb → BitVec 32
  | .apb1 => rcc.apb1Frequency
  | .apb2 => rcc.apb2Frequency

end Rcc

/-! ## By the request -/

def is32bitInstance (e : Entry) : Bool :=
  [2#8, 5#8, 23#8, 24#8, TimerRequest.any32bit].contains e.request

def isBreakInstance (e : Entry) : Bool := [1#8, 8#8, 15#8, 16#8, 17#8].contains e.request

def isSlaveInstance (e : Entry) : Bool :=
  [1#8, 2#8, 3#8, 4#8, 5#8, 8#8, 12#8, 15#8, 23#8, 24#8].contains e.request

def isOnAPB1 (e : Entry) : Bool :=
  [2#8, 3#8, 4#8, 5#8, 6#8, 7#8, 12#8, 13#8, 14#8].contains e.request

/-- `TimerWrapper::get_clock_frequency`. -/
def getClockFrequency (rcc : Rcc) (e : Entry) : BitVec 32 :=
  if isOnAPB1 e then rcc.apb1Frequency else rcc.apb2Frequency

def clockBus (e : Entry) : Apb := if isOnAPB1 e then .apb1 else .apb2

theorem getClockFrequency_eq (rcc : Rcc) (e : Entry) :
    getClockFrequency rcc e = rcc.frequency (clockBus e) := by
  unfold getClockFrequency clockBus
  split
  · rfl
  · rfl

/-! ## By the timer -/

/-- `cmsis_timers`; a timer is its number. -/
def cmsisTimers : List Nat := [2, 3, 4, 5, 23, 24, 12, 13, 14, 15, 16, 17, 6, 7, 1, 8]

inductive EnableRegister
  | apb1lenr
  | apb1henr
  | apb2enr
deriving DecidableEq

def EnableRegister.bus : EnableRegister → Apb
  | apb1lenr => .apb1
  | apb1henr => .apb1
  | apb2enr => .apb2

/-- `TimerXList`. -/
def timerXList : List (Nat × EnableRegister) :=
  [(2, .apb1lenr), (3, .apb1lenr), (4, .apb1lenr), (5, .apb1lenr), (6, .apb1lenr), (7, .apb1lenr),
    (12, .apb1lenr), (13, .apb1lenr), (14, .apb1lenr), (23, .apb1henr), (24, .apb1henr),
    (1, .apb2enr), (8, .apb2enr), (15, .apb2enr), (16, .apb2enr), (17, .apb2enr)]

/-- `rcc_enable_timer`: the register whose bit of the timer it sets. -/
def rccEnableTimer (tim : Nat) : Except String EnableRegister :=
  match timerXList.lookup tim with
  | some register => .ok register
  | none => .error "Invalid timer given to rcc_enable_timer"

/-- The branches of `get_timer_frequency`. -/
def timerBus (tim : Nat) : Option Apb :=
  if [2, 3, 4, 5, 6, 7, 12, 13, 14].contains tim then some .apb1
  else if [1, 8, 15, 16, 17, 23, 24].contains tim then some .apb2
  else none

/-- `TimerDomain::get_timer_frequency`. -/
def getTimerFrequency (rcc : Rcc) (tim : Nat) : Except String (BitVec 32) :=
  match timerBus tim with
  | some bus => .ok (rcc.frequency bus)
  | none => .error "Invalid timer ptr"

/-- What a timer can do. -/
structure Hardware where
  is32bit : Nat → Bool
  isBreak : Nat → Bool
  isSlave : Nat → Bool

/-- What its reference manual says of it. -/
structure Documented (hw : Hardware) : Prop where
  is32bit : ∀ tim ∈ cmsisTimers, hw.is32bit tim = [2, 5, 23, 24].contains tim
  isBreak : ∀ tim ∈ cmsisTimers, hw.isBreak tim = [1, 8, 15, 16, 17].contains tim
  isSlave : ∀ tim ∈ cmsisTimers,
    hw.isSlave tim = [1, 2, 3, 4, 5, 8, 12, 15, 23, 24].contains tim

/-! ## Agreement -/

/-- The wrapper of a request and a timer. -/
structure Agrees (hw : Hardware) (rcc : Rcc) (e : Entry) (tim : Nat) : Prop where
  frequency : getTimerFrequency rcc tim = .ok (getClockFrequency rcc e)
  bus : ∃ register, rccEnableTimer tim = .ok register ∧ clockBus e = register.bus ∧
    timerBus tim = some register.bus
  is32bit : is32bitInstance e = hw.is32bit tim
  isBreak : isBreakInstance e = hw.isBreak tim
  isSlave : isSlaveInstance e = hw.isSlave tim

/-- The device of a request, with the configuration its instance is made from. -/
def DeviceAgrees (hw : Hardware) (rcc : Rcc) (e : Entry) (c : Config) : Prop :=
  ∃ tim, cmsisTimers[c.timerIdx.toNat]? = some tim ∧ Agrees hw rcc e tim

/-- The timers that a wrapper cannot tell apart; 23 and 24 are clocked by a bus of their
own. -/
def groups : List (List Nat) := [[3, 4, 12], [2, 5], [1, 8, 15], [16, 17], [6, 7, 13, 14]]

def SameGroup (t u : Nat) : Prop := ∃ g ∈ groups, t ∈ g ∧ u ∈ g

instance (t u : Nat) : Decidable (SameGroup t u) := inferInstanceAs (Decidable (∃ g ∈ groups, _))

/-- The timer at each position of the result: those that are named, then one for every
`Any32bit`, then what is left. -/
def timerAt (scheduler : SchedulerTimer) (requests : List Entry) (i : Nat) : Option Nat :=
  (specificTimers requests ++
    List.replicate (requests.countP Entry.isAny32bit) (any32bitTimer scheduler requests) ++
      candidates requests)[i]?

/-- The request names a timer of the group of the one at its position. -/
def Suits (scheduler : SchedulerTimer) (requests : List Entry) (i : Nat) : Prop :=
  ∃ t, timerAt scheduler requests i = some t ∧ SameGroup (entry requests i).reqint t

/-! ## One timer -/

variable {hw : Hardware} {rcc : Rcc} {e : Entry} {tim : Nat}

/-- Where the buses agree the frequencies do. -/
theorem frequency_of_bus (h : timerBus tim = some (clockBus e)) :
    getTimerFrequency rcc tim = .ok (getClockFrequency rcc e) := by
  rw [getClockFrequency_eq, getTimerFrequency, h]

/-- What is to be compared, the frequency left out. -/
def Alike (e : Entry) (tim : Nat) : Prop :=
  (timerXList.lookup tim).map EnableRegister.bus = some (clockBus e) ∧
    timerBus tim = some (clockBus e) ∧
      is32bitInstance e = [2, 5, 23, 24].contains tim ∧
        isBreakInstance e = [1, 8, 15, 16, 17].contains tim ∧
          isSlaveInstance e = [1, 2, 3, 4, 5, 8, 12, 15, 23, 24].contains tim

instance (e : Entry) (tim : Nat) : Decidable (Alike e tim) := inferInstanceAs (Decidable (_ ∧ _))

theorem agrees_iff_alike (hhw : Documented hw) (ht : tim ∈ cmsisTimers) :
    Agrees hw rcc e tim ↔ Alike e tim := by
  have h32 := hhw.is32bit tim ht
  have hbreak := hhw.isBreak tim ht
  have hslave := hhw.isSlave tim ht
  constructor
  · intro h
    obtain ⟨register, hregister, hclock, hbus⟩ := h.bus
    have hlookup : timerXList.lookup tim = some register := by
      unfold rccEnableTimer at hregister
      split at hregister
      · cases hregister
        assumption
      · cases hregister
    exact ⟨by rw [hlookup, hclock]; rfl, by rw [hbus, hclock], h.is32bit.trans h32,
      h.isBreak.trans hbreak, h.isSlave.trans hslave⟩
  · rintro ⟨henable, hbus, hw32, hwbreak, hwslave⟩
    obtain ⟨register, hlookup, hregister⟩ := Option.map_eq_some_iff.mp henable
    refine ⟨frequency_of_bus hbus, ⟨register, ?_, hregister.symm, by rw [hbus, hregister]⟩,
      hw32.trans h32.symm, hwbreak.trans hbreak.symm, hwslave.trans hslave.symm⟩
    rw [rccEnableTimer, hlookup]

/-- The requests that the wrapper's tables name. -/
def known : List Nat := [1, 2, 3, 4, 5, 6, 7, 8, 12, 13, 14, 15, 16, 17]

/-- A wrapper is like a timer only if its request is in one of the tables: a timer that is
not on `APB1` has a break input. -/
theorem known_of_alike (ht : tim ∈ cmsisTimers) (h : Alike e tim) : e.reqint ∈ known := by
  obtain ⟨henable, -, -, hbreak, -⟩ := h
  have hsplit : ∀ u ∈ cmsisTimers, (timerXList.lookup u).map EnableRegister.bus = some .apb1 ∨
      [1, 8, 15, 16, 17].contains u = true := by decide
  have hknown : ∀ {rs : List TimerRequest}, rs.map BitVec.toNat ⊆ known → rs.contains e.request = true →
      e.reqint ∈ known := fun hsub hmem => hsub (List.mem_map_of_mem (List.contains_iff_mem.mp hmem))
  rcases hsplit tim ht with hbus | hhas
  · have hclock : clockBus e = .apb1 := Option.some.inj (henable.symm.trans hbus)
    unfold clockBus at hclock
    split at hclock
    case isTrue hon => exact hknown (by decide) hon
    case isFalse => cases hclock
  · exact hknown (by decide) (hbreak.trans hhas)

theorem SameGroup.known {t u : Nat} (h : SameGroup t u) : t ∈ known ∧ u ∈ known := by
  obtain ⟨g, hg, ht, hu⟩ := h
  have hall : ∀ g ∈ groups, ∀ n ∈ g, n ∈ Clocks.known := by decide
  exact ⟨hall g hg t ht, hall g hg u hu⟩

/-- **Groups.** -/
theorem alike_iff_sameGroup (ht : tim ∈ cmsisTimers) : Alike e tim ↔ SameGroup e.reqint tim := by
  have htable : ∀ u ∈ cmsisTimers, ∀ n ∈ known,
      (Alike { request := BitVec.ofNat 8 n } u ↔ SameGroup n u) := by decide
  have hrequest : BitVec.ofNat 8 e.reqint = e.request := by
    rw [Entry.reqint, BitVec.ofNat_toNat, BitVec.setWidth_eq]
  have hsame : Alike { request := BitVec.ofNat 8 e.reqint } tim ↔ Alike e tim := by
    rw [hrequest]
    exact Iff.rfl
  rw [← hsame]
  constructor
  · intro h
    exact (htable tim ht _ (known_of_alike ht (hsame.mp h))).mp h
  · intro h
    exact (htable tim ht _ h.known.1).mpr h

/-! ## The configurations of an accepted list -/

variable {scheduler : SchedulerTimer} {requests : List Entry} {assigned : List (Nat × Config)}
  {i : Nat}

theorem timerIdx_at (h : Accepted scheduler requests assigned) (hi : i < requests.length) :
    ∃ t, timerAt scheduler requests i = some t ∧
      (assigned.map fun a => a.2.timerIdx)[i]? = some (timerIdxmap t) := by
  have hleading : specificTimers requests ++
      List.replicate (requests.countP Entry.isAny32bit) (any32bitTimer scheduler requests) ++
        (candidates requests).take (requests.countP Entry.isGeneralPurpose) <+:
      specificTimers requests ++
        List.replicate (requests.countP Entry.isAny32bit) (any32bitTimer scheduler requests) ++
          candidates requests := (List.prefix_append_right_inj _).mpr (List.take_prefix _ _)
  have htimers := assigned_timers h
  rw [← List.map_replicate, ← List.map_append, ← List.map_append] at htimers
  generalize specificTimers requests ++ List.replicate _ _ ++ List.take _ _ = given at hleading htimers
  have hlt : i < given.length := by
    have hlen := congrArg List.length htimers
    rw [List.length_map, List.length_map, length_assigned h] at hlen
    rwa [← hlen]
  refine ⟨given[i], ?_, ?_⟩
  · rw [timerAt, List.getElem?_eq_getElem (hlt.trans_le hleading.length_le), hleading.getElem hlt]
  · rw [htimers, List.getElem?_map, List.getElem?_eq_getElem hlt]
    rfl

/-- The pointer behind the index of a timer is the one to that timer. -/
theorem cmsisTimers_timerIdxmap {t u : Nat} (h : cmsisTimers[(timerIdxmap t).toNat]? = some u) :
    u = t := by
  unfold timerIdxmap at h
  split at h
  -- the last case is a timer that does not exist
  all_goals first | exact (Option.some.inj h).symm | cases h

theorem deviceAgrees_iff (hhw : Documented hw) {c : Config} {t : Nat}
    (hc : c.timerIdx = timerIdxmap t) : DeviceAgrees hw rcc e c ↔ SameGroup e.reqint t := by
  constructor
  · intro h
    obtain ⟨tim, htim, hagrees⟩ := h
    rw [hc] at htim
    have hmem := List.mem_of_getElem? htim
    rw [cmsisTimers_timerIdxmap htim] at hagrees hmem
    exact (alike_iff_sameGroup hmem).mp ((agrees_iff_alike hhw hmem).mp hagrees)
  · intro h
    have hpointer : ∀ t ∈ known, cmsisTimers[(timerIdxmap t).toNat]? = some t := by decide
    have htim := hpointer t h.known.2
    have hmem := List.mem_of_getElem? htim
    refine ⟨t, by rw [hc, htim], ?_⟩
    exact (agrees_iff_alike hhw hmem).mpr ((alike_iff_sameGroup hmem).mpr h)

/-! ## Main result -/

/-- **Wrapper and timer.** The device of a request in an accepted list agrees with the timer
behind its instance exactly when the request names a timer of the group of the one at its
position. -/
theorem wrapper_agrees_iff (hw : Hardware) (hhw : Documented hw) (scheduler : SchedulerTimer)
    (requests : List Entry) (cfgs : List Config) (haccepted : build scheduler requests = .ok cfgs)
    (rcc : Rcc) (i : Nat) (hi : i < requests.length) :
    (∃ c, cfgs[i]? = some c ∧ DeviceAgrees hw rcc (entry requests i) c) ↔
      Suits scheduler requests i := by
  unfold build at haccepted
  cases hassign : assign scheduler requests with
  | error m =>
    rw [hassign] at haccepted
    cases haccepted
  | ok assigned =>
    rw [hassign] at haccepted
    obtain rfl := Except.ok.inj haccepted
    have h := accepted hassign
    obtain ⟨a, hget, -, htimer, -⟩ := configuration_at h hi
    obtain ⟨t, hat, hidx⟩ := timerIdx_at h hi
    have hc : a.2.timerIdx = timerIdxmap t := Option.some.inj (htimer.symm.trans hidx)
    constructor
    · intro ⟨c, hcfg, hagrees⟩
      rw [List.getElem?_map, hget] at hcfg
      cases hcfg
      exact ⟨t, hat, (deviceAgrees_iff hhw hc).mp hagrees⟩
    · intro ⟨u, hu, hsame⟩
      cases hat.symm.trans hu
      exact ⟨a.2, by rw [List.getElem?_map, hget]; rfl, (deviceAgrees_iff hhw hc).mpr hsame⟩

/-- The timers of an STM32H723. -/
def stm32h723 : Hardware where
  is32bit tim := [2, 5, 23, 24].contains tim
  isBreak tim := [1, 8, 15, 16, 17].contains tim
  isSlave tim := [1, 2, 3, 4, 5, 8, 12, 15, 23, 24].contains tim

/-- A device for timer 3. -/
theorem wrapper_agrees_mixed :
    ∃ c, [(⟨1#8, .reset, .reset⟩ : Config), ⟨3#8, .reset, .reset⟩, ⟨9#8, .reset, .reset⟩][0]? = some c ∧
      DeviceAgrees stm32h723 ⟨0, 137500000, 137500000⟩ (entry mixed 0) c :=
  (wrapper_agrees_iff stm32h723 ⟨fun _ _ => rfl, fun _ _ => rfl, fun _ _ => rfl⟩ {} mixed _ (by rfl) _ 0
    (by decide)).mpr ⟨3, by rfl, by decide⟩

/-- `Any32bit` is given timer 5, which is on `APB1` and takes a trigger. -/
theorem wrapper_disagrees : ¬ ∀ scheduler requests cfgs, build scheduler requests = .ok cfgs →
    ∀ rcc, ∀ i < requests.length,
      ∃ c, cfgs[i]? = some c ∧ DeviceAgrees stm32h723 rcc (entry requests i) c := by
  intro hall
  obtain ⟨c, hc, tim, htim, hagrees⟩ := hall {} [{ request := .any32bit }] [⟨3#8, .reset, .reset⟩] rfl
    ⟨0, 137500000, 137500000⟩ 0 (by decide)
  cases hc
  cases htim
  exact absurd hagrees.isSlave (by decide)

end StLib.Timers.Clocks
