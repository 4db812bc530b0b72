import StLib.Base.BackwardDifference
import StLib.Utilities.RingBuffer

/-! # Encoders with speed and acceleration

`NewEncoderSensor.hpp`. Numbers are rational where the code has `double`; the differences of
two counters are integers, which 64 bits hold. -/
namespace StLib.Sensors.EncoderSensor

open Base.BackwardDifference Base.CircularWindow Utilities.RingBuffer

inductive Direction
  | forward
  | backwards
deriving DecidableEq

/-- `SAMPLES`, with the assertion about the window. -/
structure Samples where
  n : Size
  enough : 2 ≤ (n / 2#32 * 2#32).toNat
  fits : (n / 2#32 * 2#32).toNat < 2 ^ 31

/-- `WINDOW_SIZE`, the capacity of the ring. -/
def Samples.window (samples : Samples) : Capacity where
  n := samples.n / 2#32 * 2#32
  fits := samples.fits

/-- What the encoder returns when it is read. -/
structure Reading where
  counter : BitVec 32
  initialCounterValue : BitVec 32
  direction : Bool

structure Config where
  samples : Samples
  counterDistanceM : ℚ
  sampleTimeS : ℚ

structure Sensor where
  pastDeltaCounters : Buffer Int
  direction : Direction
  position : ℚ
  speed : ℚ
  acceleration : ℚ

variable (cfg : Config)

/-- `push(0)`, so many times. -/
def pushZeros : Nat → Buffer Int → Option (Buffer Int)
  | 0, r => some r
  | k + 1, r => (r.push cfg.samples.window 0).bind fun result => pushZeros k result.2

/-- The constructor; what the pointers point to stays. -/
def init (direction : Direction) (position speed acceleration : ℚ) : Option Sensor := do
  let pastDeltaCounters ← pushZeros cfg cfg.samples.window.n.toNat (Buffer.init cfg.samples.window)
  some { pastDeltaCounters, direction, position, speed, acceleration }

/-- `push_pop(0)`, so many times. -/
def pushPopZeros : Nat → Buffer Int → Option (Buffer Int)
  | 0, r => some r
  | k + 1, r => (r.pushPop cfg.samples.window 0).bind fun result => pushPopZeros k result.2

/-- What the encoder does is seen in the next reading. -/
def Sensor.reset (s : Sensor) : Option Sensor := do
  let pastDeltaCounters ← pushPopZeros cfg cfg.samples.window.n.toNat s.pastDeltaCounters
  some { s with pastDeltaCounters }

def Reading.delta (r : Reading) : Int := r.counter.toNat - r.initialCounterValue.toNat

def Sensor.read (r : Reading) (s : Sensor) : Option Sensor := do
  let window := cfg.samples.window
  let past := s.pastDeltaCounters
  let delta := r.delta
  let previous ← past.get window (past.size / 2#32 - 1#32)
  let previousPrevious ← past.get window (past.size - 1#32)
  let step := cfg.sampleTimeS * window.n.toNat / 2
  let result ← past.pushPop window delta
  some {
    pastDeltaCounters := result.2
    direction := if r.direction then .forward else .backwards
    position := delta * cfg.counterDistanceM
    speed := (3 * delta / 2 - 2 * previous + previousPrevious / 2) * cfg.counterDistanceM / step
    acceleration :=
      (delta - 2 * previous + previousPrevious) * cfg.counterDistanceM / (step * step) }

inductive Event
  | read (r : Reading)
  | reset

def Event.apply (s : Sensor) : Event → Option Sensor
  | .read r => s.read cfg r
  | .reset => s.reset cfg

def run : List Event → Sensor → Option Sensor
  | [], s => some s
  | e :: rest, s => (e.apply cfg s).bind (run rest)

/-! ## The ring holds the last differences -/

/-- The ring after the differences `l`. -/
structure Kept (s : Sensor) (l : List Int) : Prop where
  filled : cfg.samples.window.n.toNat ≤ l.length
  ring : Holds cfg.samples.window s.pastDeltaCounters (l.rtake cfg.samples.window.n.toNat)

section

variable {cfg} {s : Sensor} {l : List Int}

theorem window_pos (cfg : Config) : 0 < cfg.samples.window.n.toNat :=
  (Nat.zero_lt_two).trans_le cfg.samples.enough

/-- The ring is full, and the newest element takes the place of the oldest. -/
theorem pushPop_slides {r : Buffer Int} (hfull : cfg.samples.window.n.toNat ≤ l.length)
    (h : Holds cfg.samples.window r (l.rtake cfg.samples.window.n.toNat)) (x : Int) :
    ∃ t, r.pushPop cfg.samples.window x = some (true, t) ∧
      Holds cfg.samples.window t ((l ++ [x]).rtake cfg.samples.window.n.toNat) := by
  obtain ⟨o, rest, hl, hslide⟩ := rtake_slide (window_pos cfg) hfull
  rw [hl] at h
  rw [hslide]
  exact h.pushPop x

theorem pushZeros_holds (k : Nat) {r : Buffer Int} {l : List Int} (h : Holds cfg.samples.window r l)
    (hroom : l.length + k ≤ cfg.samples.window.n.toNat) :
    ∃ t, pushZeros cfg k r = some t ∧ Holds cfg.samples.window t (l ++ List.replicate k 0) := by
  induction k generalizing r l with
  | zero => exact ⟨r, rfl, by rwa [List.replicate_zero, List.append_nil]⟩
  | succ k ih =>
    obtain ⟨u, hu, hpushed⟩ := h.push (show l.length < _ by omega) 0
    obtain ⟨t, ht, hlast⟩ := ih hpushed (by rw [List.length_append, List.length_singleton]; omega)
    refine ⟨t, ?_, ?_⟩
    · rw [pushZeros, hu]
      exact ht
    · rwa [List.append_assoc] at hlast

theorem pushPopZeros_holds (k : Nat) {r : Buffer Int} {l : List Int}
    (hfull : cfg.samples.window.n.toNat ≤ l.length)
    (h : Holds cfg.samples.window r (l.rtake cfg.samples.window.n.toNat)) :
    ∃ t, pushPopZeros cfg k r = some t ∧
      Holds cfg.samples.window t ((l ++ List.replicate k 0).rtake cfg.samples.window.n.toNat) := by
  induction k generalizing r l with
  | zero => exact ⟨r, rfl, by rwa [List.replicate_zero, List.append_nil]⟩
  | succ k ih =>
    obtain ⟨u, hu, hpushed⟩ := pushPop_slides hfull h 0
    obtain ⟨t, ht, hlast⟩ := ih (hfull.trans (by rw [List.length_append]; omega)) hpushed
    refine ⟨t, ?_, ?_⟩
    · rw [pushPopZeros, hu]
      exact ht
    · rwa [List.append_assoc] at hlast

theorem kept_init (cfg : Config) (direction : Direction) (position speed acceleration : ℚ) :
    ∃ s, init cfg direction position speed acceleration = some s ∧
      Kept cfg s (List.replicate cfg.samples.window.n.toNat 0) := by
  obtain ⟨t, ht, hheld⟩ := pushZeros_holds cfg.samples.window.n.toNat (holds_init cfg.samples.window)
    (Nat.zero_add _).le
  refine ⟨_, by rw [init, ht]; rfl, List.length_replicate.ge, ?_⟩
  rw [List.rtake, List.length_replicate, Nat.sub_self, List.drop_zero]
  exact hheld

theorem Kept.reset (h : Kept cfg s l) :
    ∃ s', s.reset cfg = some s' ∧ Kept cfg s' (l ++ List.replicate cfg.samples.window.n.toNat 0) := by
  obtain ⟨t, ht, hheld⟩ := pushPopZeros_holds cfg.samples.window.n.toNat h.filled h.ring
  refine ⟨_, by rw [Sensor.reset, ht]; rfl, h.filled.trans ?_, hheld⟩
  rw [List.length_append]
  exact Nat.le_add_right _ _

/-- The window is twice the step between the differences that are used. -/
theorem window_even (cfg : Config) :
    cfg.samples.window.n.toNat = 2 * (cfg.samples.window.n.toNat / 2) := by
  have hfits := cfg.samples.n.isLt
  have hw : cfg.samples.window.n.toNat = cfg.samples.n.toNat / 2 * 2 := by
    change (cfg.samples.n / 2#32 * 2#32).toNat = _
    rw [BitVec.toNat_mul, BitVec.toNat_udiv]
    exact Nat.mod_eq_of_lt (show cfg.samples.n.toNat / 2 * 2 < 2 ^ 32 by omega)
  omega

theorem Kept.size (h : Kept cfg s l) : s.pastDeltaCounters.size = cfg.samples.window.n := by
  refine BitVec.eq_of_toNat_eq (h.ring.count.trans ?_)
  rw [length_rtake, Nat.min_eq_right h.filled]

/-- The `k`-th difference before this one. -/
theorem Kept.get (h : Kept cfg s l) {k : Nat} {index : Size} (hindex : index.toNat = k - 1) (hk : 0 < k)
    (hw : k ≤ cfg.samples.window.n.toNat) :
    s.pastDeltaCounters.get cfg.samples.window index = l[l.length - k]? := by
  have hfilled := h.filled
  have hlength := length_rtake cfg.samples.window.n.toNat l
  rw [h.ring.get index (by omega), hindex, reverse_rtake (by omega) (by omega)]
  congr 1
  omega

/-- The step is half of the window. -/
def Config.step (cfg : Config) : ℚ := cfg.sampleTimeS * (cfg.samples.window.n.toNat / 2 : Nat)

theorem step_eq (cfg : Config) : cfg.sampleTimeS * cfg.samples.window.n.toNat / 2 = cfg.step := by
  have hcast : (cfg.samples.window.n.toNat : ℚ) = 2 * (cfg.samples.window.n.toNat / 2 : Nat) := by
    exact_mod_cast window_even cfg
  rw [Config.step, hcast]
  ring

/-- What is computed from the differences of half a window and of a window ago. -/
def computed (cfg : Config) (r : Reading) (x₁ x₂ : Int) (pastDeltaCounters : Buffer Int) : Sensor where
  pastDeltaCounters
  direction := if r.direction then .forward else .backwards
  position := r.delta * cfg.counterDistanceM
  speed := (3 * r.delta / 2 - 2 * x₁ + x₂ / 2) * cfg.counterDistanceM /
    (cfg.sampleTimeS * cfg.samples.window.n.toNat / 2)
  acceleration := (r.delta - 2 * x₁ + x₂) * cfg.counterDistanceM /
    (cfg.sampleTimeS * cfg.samples.window.n.toNat / 2 *
      (cfg.sampleTimeS * cfg.samples.window.n.toNat / 2))

/-- What a reading leaves behind, when the differences of half a window and of a window ago
are `x₁` and `x₂`. -/
structure Reads (cfg : Config) (r : Reading) (x₁ x₂ : Int) (s : Sensor) : Prop where
  position : s.position = r.delta * cfg.counterDistanceM
  speed : s.speed = first cfg.step (r.delta * cfg.counterDistanceM) (x₁ * cfg.counterDistanceM)
    (x₂ * cfg.counterDistanceM)
  acceleration : s.acceleration = second cfg.step (r.delta * cfg.counterDistanceM)
    (x₁ * cfg.counterDistanceM) (x₂ * cfg.counterDistanceM)

theorem Kept.read (h : Kept cfg s l) (r : Reading) :
    ∃ s' x₁ x₂, l[l.length - cfg.samples.window.n.toNat / 2]? = some x₁ ∧
      l[l.length - cfg.samples.window.n.toNat]? = some x₂ ∧
      s.read cfg r = some s' ∧ Kept cfg s' (l ++ [r.delta]) ∧ Reads cfg r x₁ x₂ s' := by
  have henough := cfg.samples.enough
  change 2 ≤ cfg.samples.window.n.toNat at henough
  have hfilled := h.filled
  have hlarge := cfg.samples.window.n.isLt
  have htwo : (2#32).toNat = 2 := rfl
  have hone : (1#32).toNat = 1 := rfl
  have hhalf : (s.pastDeltaCounters.size / 2#32 - 1#32).toNat = cfg.samples.window.n.toNat / 2 - 1 := by
    rw [h.size, BitVec.toNat_sub, BitVec.toNat_udiv, htwo, hone]
    omega
  have hwhole : (s.pastDeltaCounters.size - 1#32).toNat = cfg.samples.window.n.toNat - 1 := by
    rw [h.size, BitVec.toNat_sub, hone]
    omega
  obtain ⟨x₁, hx₁⟩ : ∃ x, l[l.length - cfg.samples.window.n.toNat / 2]? = some x :=
    ⟨_, List.getElem?_eq_getElem (by omega)⟩
  obtain ⟨x₂, hx₂⟩ : ∃ x, l[l.length - cfg.samples.window.n.toNat]? = some x :=
    ⟨_, List.getElem?_eq_getElem (by omega)⟩
  obtain ⟨t, ht, hheld⟩ := pushPop_slides h.filled h.ring r.delta
  refine ⟨computed cfg r x₁ x₂ t, x₁, x₂, hx₁, hx₂, ?_, ⟨?_, hheld⟩, ⟨rfl, ?_, ?_⟩⟩
  · rw [Sensor.read, h.get hhalf (by omega) (by omega), hx₁, h.get hwhole (by omega) le_rfl, hx₂]
    dsimp only [Option.bind_eq_bind, Option.bind_some]
    rw [ht]
    rfl
  · rw [List.length_append]
    exact hfilled.trans (Nat.le_add_right _ _)
  · rw [computed, step_eq, first]
    ring
  · rw [computed, step_eq, second]
    ring

theorem Kept.apply (h : Kept cfg s l) (e : Event) : ∃ s' l', e.apply cfg s = some s' ∧ Kept cfg s' l' := by
  cases e with
  | read r =>
    obtain ⟨s', -, -, -, -, hs', hkept, -⟩ := h.read r
    exact ⟨s', _, hs', hkept⟩
  | reset =>
    obtain ⟨s', hs', hkept⟩ := h.reset
    exact ⟨s', _, hs', hkept⟩

theorem Kept.run (h : Kept cfg s l) (es : List Event) : ∃ s' l', run cfg es s = some s' ∧ Kept cfg s' l' := by
  induction es generalizing s l with
  | nil => exact ⟨s, l, rfl, h⟩
  | cons e es ih =>
    obtain ⟨u, m, hu, hnext⟩ := h.apply e
    obtain ⟨s', l', hs', hkept⟩ := ih hnext
    exact ⟨s', l', by rw [EncoderSensor.run, hu]; exact hs', hkept⟩

theorem Kept.reads (h : Kept cfg s l) (rs : List Reading) :
    ∃ s', EncoderSensor.run cfg (rs.map .read) s = some s' ∧ Kept cfg s' (l ++ rs.map Reading.delta) := by
  induction rs generalizing s l with
  | nil => exact ⟨s, rfl, by rwa [List.map_nil, List.append_nil]⟩
  | cons r rs ih =>
    obtain ⟨u, -, -, -, -, hu, hnext, -⟩ := h.read r
    obtain ⟨s', hs', hkept⟩ := ih hnext
    refine ⟨s', ?_, ?_⟩
    · rw [List.map_cons, EncoderSensor.run, Event.apply, hu]
      exact hs'
    · rwa [List.append_assoc] at hkept

theorem run_append (es es' : List Event) (s : Sensor) :
    run cfg (es ++ es') s = (run cfg es s).bind (run cfg es') := by
  induction es generalizing s with
  | nil => rfl
  | cons e es ih =>
    rw [List.cons_append, run, run, Option.bind_assoc]
    exact Option.bind_congr fun u _ => ih u

end

/-- Readings at equal distances in time of a motion. -/
def SampledFrom (cfg : Config) (p : Polynomial ℚ) (t₀ : ℚ) (rs : List Reading) : Prop :=
  ∀ (k : Nat) (r : Reading), rs[k]? = some r → r.delta * cfg.counterDistanceM = p.eval (t₀ + k * cfg.sampleTimeS)

/-- **On quadratic motions the estimates are exact.** After any events, once as many readings as
the window has precede, the speed and the acceleration are the derivatives of the motion at
the time of the reading. -/
theorem estimates_exact (cfg : Config) (htime : cfg.sampleTimeS ≠ 0)
    (direction : Direction) (position speed acceleration : ℚ) (es : List Event)
    (p : Polynomial ℚ) (hp : p.natDegree ≤ 2) (t₀ : ℚ) (past : List Reading) (r : Reading)
    (hfilled : cfg.samples.window.n.toNat ≤ past.length) (hmotion : SampledFrom cfg p t₀ (past ++ [r])) :
    ∃ s, (init cfg direction position speed acceleration).bind
        (run cfg (es ++ (past ++ [r]).map .read)) = some s ∧
      s.position = p.eval (t₀ + past.length * cfg.sampleTimeS) ∧
      s.speed = p.derivative.eval (t₀ + past.length * cfg.sampleTimeS) ∧
      s.acceleration = p.derivative.derivative.eval (t₀ + past.length * cfg.sampleTimeS) := by
  obtain ⟨s₀, hs₀, hkept₀⟩ := kept_init cfg direction position speed acceleration
  obtain ⟨s₁, l, hs₁, hkept₁⟩ := hkept₀.run es
  obtain ⟨s₂, hs₂, hkept₂⟩ := hkept₁.reads past
  obtain ⟨s, x₁, x₂, hx₁, hx₂, hs, -, hreads⟩ := hkept₂.read r
  have hwindow := window_even cfg
  have hpos := window_pos cfg
  -- a difference of this motion, so many readings ago
  have hago : ∀ k x, 0 < k → k ≤ past.length →
      (l ++ past.map Reading.delta)[(l ++ past.map Reading.delta).length - k]? = some x →
      x * cfg.counterDistanceM =
        p.eval (t₀ + past.length * cfg.sampleTimeS - k * cfg.sampleTimeS) := by
    intro k x hk hle hx
    rw [List.length_append, List.length_map, List.getElem?_append_right (by omega),
      List.getElem?_map] at hx
    obtain ⟨q, hq, rfl⟩ := Option.map_eq_some_iff.mp hx
    have hindex : l.length + past.length - k - l.length = past.length - k := by omega
    rw [hindex] at hq
    have hsample := hmotion (past.length - k) q (by
      rw [List.getElem?_append_left (by omega)]
      exact hq)
    rw [hsample, Nat.cast_sub hle]
    congr 1
    ring
  have hnow := hmotion past.length r (by rw [List.getElem?_append_right le_rfl, Nat.sub_self]; rfl)
  have hhalf := hago _ _ (by omega) (by omega) hx₁
  have hwhole := hago _ _ hpos hfilled hx₂
  have hstep : cfg.step ≠ 0 := by
    have hk : ((cfg.samples.window.n.toNat / 2 : Nat) : ℚ) ≠ 0 := Nat.cast_ne_zero.mpr (by omega)
    exact mul_ne_zero htime hk
  have htwice : (cfg.samples.window.n.toNat : ℚ) * cfg.sampleTimeS = 2 * cfg.step := by
    rw [← step_eq]
    ring
  have honce : ((cfg.samples.window.n.toNat / 2 : Nat) : ℚ) * cfg.sampleTimeS = cfg.step := mul_comm _ _
  rw [honce] at hhalf
  rw [htwice] at hwhole
  refine ⟨s, ?_, ?_, ?_, ?_⟩
  · rw [hs₀, Option.bind_some, run_append, hs₁, Option.bind_some, List.map_append, run_append, hs₂,
      Option.bind_some]
    change (s₂.read cfg r).bind _ = _
    rw [hs]
    rfl
  · rw [hreads.position, hnow]
  · rw [hreads.speed, hnow, hhalf, hwhole, first_eq hp hstep]
  · rw [hreads.acceleration, hnow, hhalf, hwhole, second_eq hp hstep]

/-- Two samples, and units of one. -/
def unitConfig : Config where
  samples := { n := 2#32, enough := by decide, fits := by decide }
  counterDistanceM := 1
  sampleTimeS := 1

/-- A reading so many counts from the start. -/
def readingAt (counter : BitVec 32) : Reading where
  counter
  initialCounterValue := 0#32
  direction := true

theorem estimates_exact_square :
    ∃ s, (init unitConfig .forward 0 0 0).bind
        (run unitConfig ([.reset] ++ ([readingAt 0#32, readingAt 1#32] ++ [readingAt 4#32]).map .read)) =
          some s ∧
      s.speed = 4 ∧ s.acceleration = 2 := by
  have hmotion : SampledFrom unitConfig (Polynomial.X ^ 2) 0
      ([readingAt 0#32, readingAt 1#32] ++ [readingAt 4#32]) := by
    intro k r hr
    match k with
    | 0 =>
      obtain rfl := Option.some.inj hr
      norm_num [Reading.delta, readingAt, unitConfig]
    | 1 =>
      obtain rfl := Option.some.inj hr
      norm_num [Reading.delta, readingAt, unitConfig]
    | 2 =>
      obtain rfl := Option.some.inj hr
      norm_num [Reading.delta, readingAt, unitConfig]
    | k + 3 => cases hr
  obtain ⟨s, hs, -, hspeed, hacceleration⟩ := estimates_exact unitConfig one_ne_zero .forward 0 0 0
    [.reset] (Polynomial.X ^ 2) (by simp) 0 [readingAt 0#32, readingAt 1#32] (readingAt 4#32)
    (by decide) hmotion
  refine ⟨s, hs, ?_, ?_⟩
  · rw [hspeed]
    norm_num [unitConfig]
  · rw [hacceleration]
    norm_num [unitConfig]

end StLib.Sensors.EncoderSensor
