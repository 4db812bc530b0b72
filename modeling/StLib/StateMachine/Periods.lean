import StLib.StateMachine.TimedActions

/-! # Periods of cyclic actions

`State::add_cyclic_action` narrows a 64-bit count of milliseconds or microseconds to 32
bits, and `register_all_timed_actions` multiplies milliseconds by 1000 in 32 bits. What
the scheduler is handed is the period in microseconds modulo 2^32, and a task it accepts
has the period that was meant only if that was below 2^31 µs (`period_exact_iff`). -/
namespace StLib.StateMachine.Periods

open StLib.Scheduler.Model StLib.Scheduler.Steps StLib.StateMachine.TimedActions

/-- The `std::chrono` durations `ValidTime` allows, with their 64-bit signed counts. -/
inductive Duration
  | milliseconds (count : BitVec 64)
  | microseconds (count : BitVec 64)
deriving DecidableEq

/-- The duration in microseconds. -/
def Duration.us : Duration → Int
  | .milliseconds count => count.toInt * 1000
  | .microseconds count => count.toInt

/-- The action `add_cyclic_action` stores. -/
def timedAction (action : Option Callback) : Duration → TimedAction
  | .milliseconds count =>
    { action, period := count.setWidth 32, alarmPrecision := .milliseconds }
  | .microseconds count =>
    { action, period := count.setWidth 32, alarmPrecision := .microseconds }

/-- `add_cyclic_action`. -/
def addCyclicAction (action : Option Callback) (period : Duration) (l : List TimedAction) :
    List TimedAction :=
  l ++ [timedAction action period]

@[simp] theorem timedAction_action (action : Option Callback) (period : Duration) :
    (timedAction action period).action = action := by
  cases period <;> rfl

@[simp] theorem timedAction_isOn (action : Option Callback) (period : Duration) :
    (timedAction action period).isOn = false := by
  cases period <;> rfl

/-- What the scheduler is handed: the microseconds modulo 2^32. -/
theorem timedAction_periodUs (action : Option Callback) (period : Duration) :
    ((timedAction action period).periodUs.toNat : Int) = period.us % 4294967296 := by
  cases period with
  | milliseconds count =>
    have := count.isLt
    show (((count.setWidth 32) * 1000#32).toNat : Int) = count.toInt * 1000 % 4294967296
    rw [BitVec.toNat_mul, BitVec.toNat_setWidth, BitVec.toInt_eq_toNat_cond,
      show (1000#32).toNat = 1000 from rfl]
    split <;> omega
  | microseconds count =>
    have := count.isLt
    show ((count.setWidth 32).toNat : Int) = count.toInt % 4294967296
    rw [BitVec.toNat_setWidth, BitVec.toInt_eq_toNat_cond]
    split <;> omega

/-- A task that takes the period handed over has the one meant exactly when that is
positive and fits. -/
theorem effective_eq_iff {p : BitVec 32} {us : Int} (hp : (p.toNat : Int) = us % 4294967296)
    (hacc : (if p = 0#32 then 1#32 else p).toNat < kMaxIntervalUs) :
    (((if p = 0#32 then 1#32 else p).toNat : Int) = us) ↔ 0 < us ∧ us < 2 ^ 31 := by
  have hk : kMaxIntervalUs = 2 ^ 31 := by decide
  rw [hk] at hacc
  split at hacc
  next h0 =>
    rw [if_pos h0, show (1#32).toNat = 1 from rfl]
    rw [h0, show (0#32).toNat = 0 from rfl] at hp
    omega
  next h0 =>
    have hpos : p.toNat ≠ 0 := fun h => h0 (BitVec.eq_of_toNat_eq h)
    rw [if_neg h0]
    omega

/-- **Periods are exact** when the state is entered, or the registration fails, exactly
when the period is positive and below 2^31 µs, or the actions cannot be registered. -/
theorem period_exact_iff (pre post : List TimedAction) (f : Callback) (period : Duration)
    (s : State) (hpre : ∀ a ∈ pre, a.isOn = false) (hpost : ∀ a ∈ post, a.isOn = false) :
    let l := addCyclicAction (some f) period pre ++ post
    ((registerAll l s).2.2 = true → ∃ a ∈ (registerAll l s).1[pre.length]?,
        Registered (registerAll l s).2.1 a ∧
          (((registerAll l s).2.1.tasks a.slot).periodUs.toNat : Int) = period.us) ↔
      (Registrable l s → 0 < period.us ∧ period.us < 2 ^ 31) := by
  intro l
  have hl : l = pre ++ timedAction (some f) period :: post := by
    simp [l, addCyclicAction]
  have hoff : ∀ a ∈ l, a.isOn = false := by
    rw [hl]
    intro a ha
    rcases List.mem_append.mp ha with ha | ha
    · exact hpre a ha
    · rcases List.mem_cons.mp ha with rfl | ha
      · exact timedAction_isOn _ _
      · exact hpost a ha
  by_cases hreg : Registrable l s
  · obtain ⟨l', t, hr, hall⟩ := registerAll_spec hreg hoff
    obtain ⟨hlen, hsame⟩ := List.forall₂_iff_get.mp hall.same
    have hlt : pre.length < l.length := by simp [hl]
    obtain ⟨hact, hper, hprec⟩ := hsame pre.length hlt (hlen ▸ hlt)
    have hget : l.get ⟨pre.length, hlt⟩ = timedAction (some f) period := by simp [hl]
    have ha : l'[pre.length]? = some (l'.get ⟨pre.length, hlen ▸ hlt⟩) :=
      List.getElem?_eq_getElem (hlen ▸ hlt)
    rw [hget] at hact hper hprec
    generalize l'.get ⟨pre.length, hlen ▸ hlt⟩ = a at hact hper hprec ha
    have hus : a.periodUs = (timedAction (some f) period).periodUs := by
      rw [TimedAction.periodUs, TimedAction.periodUs, hper, hprec]
    have hmem := List.mem_of_getElem? ha
    have hon : a.isOn = true := by
      rw [hall.on a hmem, hact, timedAction_action]
      rfl
    have hregd := hall.registered a hmem hon
    have hacc : Accepted (timedAction (some f) period) :=
      hreg.1 _ (by simp [hl]) (by simp)
    have htask := hregd.period
    rw [hus] at htask
    have hiff := effective_eq_iff (timedAction_periodUs (some f) period) hacc
    rw [← htask] at hiff
    rw [hr]
    simp only [true_imp_iff, hreg, ha, Option.mem_def, Option.some.injEq, ← hiff]
    constructor
    · rintro ⟨b, rfl, -, hb⟩
      exact hb
    · exact fun h => ⟨a, rfl, hregd, h⟩
  · have hfail : ¬ (registerAll l s).2.2 = true := fun h => hreg (registrable_of_registerLoop h)
    simp [hreg, hfail]

/-- Five milliseconds are registered as they are. -/
theorem period_exact_five :
    ∃ a ∈ (registerAll (addCyclicAction (some 0) (.milliseconds 5#64) [] ++ []) initial).1[0]?,
      Registered (registerAll (addCyclicAction (some 0) (.milliseconds 5#64) [] ++ []) initial).2.1
          a ∧
        (((registerAll (addCyclicAction (some 0) (.milliseconds 5#64) [] ++ []) initial).2.1.tasks
          a.slot).periodUs.toNat : Int) = 5000 :=
  (period_exact_iff [] [] 0 (.milliseconds 5#64) initial (by simp) (by simp)).mpr
    (fun _ => by decide) (by decide +kernel)

/-- **A period wraps**: 4294968 ms are registered as 704 µs. -/
theorem period_wraps :
    ¬ ∀ (period : Duration) (s : State),
      (registerAll (addCyclicAction (some 0) period []) s).2.2 = true →
      ∀ a ∈ (registerAll (addCyclicAction (some 0) period []) s).1,
        (((registerAll (addCyclicAction (some 0) period []) s).2.1.tasks a.slot).periodUs.toNat :
          Int) = period.us := by
  intro h
  have hall := h (.milliseconds 4294968#64) initial (by decide +kernel)
  exact absurd hall (by decide +kernel)

end StLib.StateMachine.Periods
