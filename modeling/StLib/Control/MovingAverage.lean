import Mathlib
import StLib.Base.CircularWindow

/-! # Moving averages

`MovingAverage` and `IntegerMovingAverage` of `MovingAverage.hpp`, on a target where `size_t`
has 32 bits. They differ in their arithmetic only. An access outside of the buffer has no
result. -/
namespace StLib.Control.MovingAverage

open Base.CircularWindow

abbrev Size := BitVec 32

/-- `N`. -/
structure Length where
  n : Size
  pos : 0 < n.toNat

/-- How a sample is stored, what it contributes to the average, and what is given out of the
accumulator. -/
structure Arithmetic (ι α ο : Type) where
  store : ι → α
  share : Length → α → α
  output : α → ο

structure State (ι α ο : Type) where
  inputValue : ι
  outputValue : ο
  buffer : List α
  first : Size
  last : Size
  counter : Size
  accumulator : α

variable {ι α ο : Type} [AddCommGroup α]

/-- The constructor; an `IntegerMovingAverage` leaves the input as it finds it. -/
def init [Zero ο] (n : Length) (inputValue : ι) : State ι α ο where
  inputValue
  outputValue := 0
  buffer := List.replicate n.n.toNat 0
  first := 0#32
  last := -1#32
  counter := 0#32
  accumulator := 0

variable (a : Arithmetic ι α ο) (n : Length)

def State.read (index : Size) (s : State ι α ο) : Option α := s.buffer[index.toNat]?

def State.write (index : Size) (value : α) (s : State ι α ο) : Option (State ι α ο) :=
  if index.toNat < s.buffer.length then some { s with buffer := s.buffer.set index.toNat value } else none

def State.input (x : ι) (s : State ι α ο) : State ι α ο := { s with inputValue := x }

def execute (s : State ι α ο) : Option (State ι α ο) :=
  let value := a.store s.inputValue
  if s.counter < n.n then do
    let s := { s with last := s.last + 1#32 }
    let s ← s.write s.last value
    some { s with accumulator := s.accumulator + a.share n value, counter := s.counter + 1#32 }
  else do
    let oldest ← s.read s.first
    let s := { s with
      accumulator := s.accumulator - a.share n oldest
      first := (s.first + 1#32) % n.n
      last := (s.last + 1#32) % n.n }
    let s ← s.write s.last value
    let accumulator := s.accumulator + a.share n value
    some { s with accumulator, outputValue := a.output accumulator }

/-- `compute`; what it returns is the output. -/
def compute (x : ι) (s : State ι α ο) : Option (State ι α ο) := execute a n (s.input x)

def run : List ι → State ι α ο → Option (State ι α ο)
  | [], s => some s
  | x :: xs, s => (compute a n x s).bind (run xs)

/-! ## The window -/

/-- The values of the last samples stand in the buffer from the first one on, and the
accumulator is the sum of their shares. -/
structure Averages (s : State ι α ο) (l : List α) : Prop where
  capacity : s.buffer.length = n.n.toNat
  counter : s.counter.toNat = l.length
  window : Window s.buffer s.first.toNat l
  filling : l.length < n.n.toNat → s.first = 0#32 ∧ (s.last + 1#32).toNat = l.length
  full : l.length = n.n.toNat →
    s.first.toNat < n.n.toNat ∧ (s.last + 1#32).toNat % n.n.toNat = s.first.toNat
  accumulator : s.accumulator = (l.map (a.share n)).sum

/-- While the window is filling. -/
def State.filled (s : State ι α ο) : State ι α ο :=
  { s with
    last := s.last + 1#32
    buffer := s.buffer.set (s.last + 1#32).toNat (a.store s.inputValue)
    accumulator := s.accumulator + a.share n (a.store s.inputValue)
    counter := s.counter + 1#32 }

/-- Once the window is full. -/
def State.turned (oldest : α) (s : State ι α ο) : State ι α ο :=
  let accumulator := s.accumulator - a.share n oldest + a.share n (a.store s.inputValue)
  { s with
    first := (s.first + 1#32) % n.n
    last := (s.last + 1#32) % n.n
    buffer := s.buffer.set ((s.last + 1#32) % n.n).toNat (a.store s.inputValue)
    accumulator
    outputValue := a.output accumulator }

variable {a n} {s : State ι α ο} {l : List α}

theorem Averages.length_le (h : Averages a n s l) : l.length ≤ n.n.toNat :=
  h.capacity ▸ h.window.fits

theorem averages_init [Zero ο] (a : Arithmetic ι α ο) (n : Length) (x : ι) : Averages a n (init n x) [] where
  capacity := List.length_replicate
  counter := rfl
  window := .nil _ _
  filling _ := ⟨rfl, (by decide : (-1#32 + 1#32).toNat = 0)⟩
  full h := absurd h.symm n.pos.ne'
  accumulator := rfl

theorem Averages.input (h : Averages a n s l) (x : ι) : Averages a n (s.input x) l :=
  ⟨h.capacity, h.counter, h.window, h.filling, h.full, h.accumulator⟩

/-- An index that goes around is that of the next slot. -/
theorem toNat_next {i : Size} (hi : i.toNat < n.n.toNat) :
    (i + 1#32).toNat = i.toNat + 1 := by
  have hn := n.n.isLt
  rw [BitVec.toNat_add]
  exact Nat.mod_eq_of_lt (show i.toNat + 1 < 2 ^ 32 by omega)

theorem Averages.filled (h : Averages a n s l) (hlt : l.length < n.n.toNat) :
    execute a n s = some (s.filled a n) ∧ Averages a n (s.filled a n) (l ++ [a.store s.inputValue]) := by
  obtain ⟨hfirst, hlast⟩ := h.filling hlt
  have hnext : (s.last + 1#32).toNat < n.n.toNat := hlast ▸ hlt
  have hcounter : s.counter < n.n := by
    rw [BitVec.lt_def, h.counter]
    exact hlt
  have hslot : (s.first.toNat + l.length) % s.buffer.length = (s.last + 1#32).toNat := by
    rw [hfirst, h.capacity, hlast]
    exact (congrArg (· % _) (Nat.zero_add _)).trans (Nat.mod_eq_of_lt hlt)
  constructor
  · rw [execute, if_pos hcounter]
    dsimp only
    rw [State.write, if_pos (by rw [h.capacity]; exact hnext)]
    rfl
  · constructor
    · exact List.length_set.trans h.capacity
    · rw [State.filled, toNat_next (n := n) (h.counter ▸ hlt), h.counter, List.length_append,
        List.length_singleton]
    · rw [State.filled, ← hslot]
      exact h.window.snoc (h.capacity ▸ hlt) _
    · intro _
      rw [State.filled, toNat_next (n := n) hnext, hlast, List.length_append, List.length_singleton]
      exact ⟨hfirst, rfl⟩
    · intro hfull
      rw [List.length_append, List.length_singleton] at hfull
      rw [State.filled, toNat_next (n := n) hnext, hlast, hfull, Nat.mod_self, hfirst]
      exact ⟨n.pos, rfl⟩
    · rw [List.map_append, List.sum_append, ← h.accumulator, List.map_singleton, List.sum_singleton]
      rfl

/-- The oldest value makes room for the new one, in its slot. -/
theorem Averages.turned {o : α} (h : Averages a n s (o :: l)) (hfull : (o :: l).length = n.n.toNat) :
    s.read s.first = some o ∧ execute a n s = some (s.turned a n o) ∧
      Averages a n (s.turned a n o) (l ++ [a.store s.inputValue]) := by
  obtain ⟨hfirst, hlast⟩ := h.full hfull
  have hcounter : ¬ s.counter < n.n := by
    rw [BitVec.lt_def, h.counter, hfull]
    exact lt_irrefl _
  have holdest : s.read s.first = some o := by
    have hhead := h.window.slots 0 (Nat.succ_pos _)
    rw [Nat.add_zero, h.capacity, Nat.mod_eq_of_lt hfirst] at hhead
    exact hhead
  have hmoved : ((s.last + 1#32) % n.n).toNat = s.first.toNat := by rw [BitVec.toNat_umod, hlast]
  have hnew : ((s.first + 1#32) % n.n).toNat = (s.first.toNat + 1) % n.n.toNat := by
    rw [BitVec.toNat_umod, toNat_next (n := n) hfirst]
  have hslot : (s.first.toNat + (o :: l).length) % s.buffer.length = s.first.toNat := by
    rw [hfull, h.capacity, Nat.add_mod_right, Nat.mod_eq_of_lt hfirst]
  have hlength : (l ++ [a.store s.inputValue]).length = n.n.toNat := by
    rw [List.length_append, List.length_singleton]
    exact hfull
  refine ⟨holdest, ?_, ?_⟩
  · rw [execute, if_neg hcounter, holdest]
    dsimp only [Option.bind_eq_bind, Option.bind_some]
    rw [State.write, if_pos (by rw [hmoved, h.capacity]; exact hfirst)]
    rfl
  · constructor
    · exact List.length_set.trans h.capacity
    · exact (h.counter.trans hfull).trans hlength.symm
    · have hwindow := (h.window.rotate (a.store s.inputValue)).mod
      rw [hslot, List.length_set, h.capacity] at hwindow
      rw [State.turned, hmoved, hnew]
      exact hwindow
    · intro hlt
      exact absurd hlength hlt.ne
    · intro _
      rw [State.turned, toNat_next (n := n) (hmoved ▸ hfirst), hmoved, hnew]
      exact ⟨Nat.mod_lt _ n.pos, rfl⟩
    · rw [State.turned, h.accumulator, List.map_cons, List.sum_cons, add_sub_cancel_left,
        List.map_append, List.sum_append, List.map_singleton, List.sum_singleton]

/-! ## Runs -/

section

variable [Zero ο]

/-- After the values `l`. -/
structure Averaged (a : Arithmetic ι α ο) (n : Length) (s : State ι α ο) (l : List α) : Prop where
  averages : Averages a n s (l.rtake n.n.toNat)
  output : s.outputValue = if n.n.toNat < l.length then a.output s.accumulator else 0

theorem Averaged.compute (h : Averaged a n s l) (x : ι) :
    ∃ s', compute a n x s = some s' ∧ Averaged a n s' (l ++ [a.store x]) := by
  have hin := h.averages.input x
  have hlength := length_rtake n.n.toNat l
  have hmore : (l ++ [a.store x]).length = l.length + 1 := List.length_append
  rcases Nat.lt_or_ge l.length n.n.toNat with hlt | hle
  · rw [Nat.min_eq_left hlt.le] at hlength
    obtain ⟨hrun, hnext⟩ := hin.filled (hlength ▸ hlt)
    refine ⟨_, hrun, ?_, ?_⟩
    · rw [rtake_snoc hlt]
      exact hnext
    · rw [if_neg (by omega)]
      exact h.output.trans (if_neg (by omega))
  · obtain ⟨o, rest, hl, hslide⟩ := rtake_slide n.pos hle
    rw [Nat.min_eq_right hle] at hlength
    rw [hl] at hin hlength
    obtain ⟨-, hrun, hnext⟩ := hin.turned hlength
    refine ⟨_, hrun, ?_, ?_⟩
    · rw [hslide]
      exact hnext
    · rw [if_pos (by omega)]
      rfl

theorem Averaged.run (h : Averaged a n s l) (xs : List ι) :
    ∃ s', run a n xs s = some s' ∧ Averaged a n s' (l ++ xs.map a.store) := by
  induction xs generalizing s l with
  | nil => exact ⟨s, rfl, by rwa [List.map_nil, List.append_nil]⟩
  | cons x xs ih =>
    obtain ⟨t, ht, hnext⟩ := h.compute x
    obtain ⟨s', hs', hlast⟩ := ih hnext
    refine ⟨s', ?_, ?_⟩
    · rw [MovingAverage.run, ht]
      exact hs'
    · rwa [List.append_assoc] at hlast

theorem averaged_init (a : Arithmetic ι α ο) (n : Length) (x : ι) :
    Averaged a n (init n x) [] where
  averages := by
    rw [show ([] : List α).rtake n.n.toNat = [] from List.drop_nil]
    exact averages_init a n x
  output := rfl

end

/-! ## `MovingAverage`

Numbers are rational where the code has `double`. -/

def double : Arithmetic ℚ ℚ ℚ where
  store x := x
  share n v := v / n.n.toNat
  output := id

def reset (s : State ℚ ℚ ℚ) : State ℚ ℚ ℚ :=
  { s with
    first := 0#32
    last := -1#32
    counter := 0#32
    accumulator := 0
    outputValue := 0
    buffer := s.buffer.map fun _ => 0 }

/-- What is given out after the samples `l`. -/
def outputOf (n : Length) (l : List ℚ) : ℚ :=
  if n.n.toNat < l.length then (l.rtake n.n.toNat).sum / n.n.toNat else 0

theorem sum_div (l : List ℚ) (q : ℚ) : (l.map (· / q)).sum = l.sum / q := by
  induction l with
  | nil => exact (zero_div q).symm
  | cons v l ih => rw [List.map_cons, List.sum_cons, List.sum_cons, ih, add_div]

/-- **The average of the last `n` samples is given**, once there were more. -/
theorem Averaged.outputValue {s : State ℚ ℚ ℚ} {l : List ℚ} (h : Averaged double n s l) :
    s.outputValue = outputOf n l := by
  rw [h.output, h.averages.accumulator, outputOf]
  congr 1
  exact sum_div _ _

/-- A reset average is a new one. -/
theorem Averaged.reset {s : State ℚ ℚ ℚ} {l : List ℚ} (h : Averaged double n s l) :
    Averaged double n (reset s) [] := by
  have hfresh : MovingAverage.reset s = init n s.inputValue := by
    rw [MovingAverage.reset, init, List.map_const', h.averages.capacity]
  rw [hfresh]
  exact averaged_init double n s.inputValue

/-! ## `IntegerMovingAverage` -/

/-- The types that `FollowingUint` has a value for. -/
inductive InputType
  | uint8
  | uint16
  | uint32
deriving DecidableEq

def InputType.bits : InputType → Nat
  | uint8 => 8
  | uint16 => 16
  | uint32 => 32

/-- `FollowingUint`. -/
def InputType.following : InputType → Nat
  | uint8 => 16
  | uint16 => 32
  | uint32 => 64

variable {w : InputType} {d : Nat} {cast : BitVec w.following → ο}

def integer (w : InputType) (d : Nat) (cast : BitVec w.following → ο) :
    Arithmetic (BitVec w.bits) (BitVec w.following) ο where
  store x := x.setWidth w.following <<< d
  share n v := BitVec.ofNat w.following (v.toNat / n.n.toNat)
  output := cast

/-- The largest input fits in the accumulator after the shift. -/
def ShiftFits (w : InputType) (d : Nat) : Prop := (2 ^ w.bits - 1) <<< d < 2 ^ w.following

/-- A sample does not make the accumulator wrap in either direction. -/
def NoWrap (cast : BitVec w.following → ο) (d : Nat) (n : Length)
    (s : State (BitVec w.bits) (BitVec w.following) ο) (x : BitVec w.bits) : Prop :=
  let a := integer w d cast
  let share v := (a.share n v).toNat
  if s.counter < n.n then s.accumulator.toNat + share (a.store x) < 2 ^ w.following
  else ∃ oldest, s.read s.first = some oldest ∧ share oldest ≤ s.accumulator.toNat ∧
    s.accumulator.toNat - share oldest + share (a.store x) < 2 ^ w.following

theorem InputType.bits_le (w : InputType) : 2 ^ w.bits ≤ 2 ^ w.following := by cases w <;> decide

theorem toNat_store (h : ShiftFits w d) (x : BitVec w.bits) :
    ((integer w d cast).store x).toNat = x.toNat <<< d := by
  have hx : x.toNat ≤ 2 ^ w.bits - 1 := Nat.le_sub_one_of_lt x.isLt
  have hshift : x.toNat <<< d ≤ (2 ^ w.bits - 1) <<< d := by
    rw [Nat.shiftLeft_eq, Nat.shiftLeft_eq]
    exact Nat.mul_le_mul_right _ hx
  have hwide : x.toNat < 2 ^ w.following := x.isLt.trans_le w.bits_le
  rw [integer, BitVec.toNat_shiftLeft, BitVec.toNat_setWidth, Nat.mod_eq_of_lt hwide]
  exact Nat.mod_eq_of_lt (hshift.trans_lt h)

theorem toNat_share (v : BitVec w.following) :
    ((integer w d cast).share n v).toNat = v.toNat / n.n.toNat := by
  rw [integer, BitVec.toNat_ofNat]
  exact Nat.mod_eq_of_lt ((Nat.div_le_self _ _).trans_lt v.isLt)

/-- A sum of words does not wrap when that of the numbers fits. -/
theorem toNat_sum {k : Nat} {l : List (BitVec k)} (h : (l.map BitVec.toNat).sum < 2 ^ k) :
    l.sum.toNat = (l.map BitVec.toNat).sum := by
  induction l with
  | nil => rfl
  | cons v l ih =>
    rw [List.map_cons, List.sum_cons] at h
    rw [List.map_cons, List.sum_cons, List.sum_cons, BitVec.toNat_add, ih (by omega)]
    exact Nat.mod_eq_of_lt h

/-- Shares of at most `n` samples together are no more than the largest sample. -/
theorem sum_shares_le {N m : Nat} {l : List Nat} (hlength : l.length ≤ N) (h : ∀ v ∈ l, v ≤ m) :
    (l.map (· / N)).sum ≤ m := by
  have hsum : (l.map (· / N)).sum ≤ l.length * (m / N) := by
    have hcard := List.sum_le_card_nsmul (l.map (· / N)) (m / N) fun q hq => by
      obtain ⟨v, hv, rfl⟩ := List.mem_map.mp hq
      exact Nat.div_le_div_right (h v hv)
    rwa [List.length_map, smul_eq_mul] at hcard
  calc (l.map (· / N)).sum ≤ l.length * (m / N) := hsum
    _ ≤ N * (m / N) := Nat.mul_le_mul_right _ hlength
    _ ≤ m := Nat.mul_div_le m N

/-- The shares of the samples lose less than one unit each. -/
theorem sum_shares_near {N : Nat} (hpos : 0 < N) {l : List Nat} (hlength : l.length = N) :
    |((l.sum : ℚ) / N) - ((l.map (· / N)).sum : ℕ)| < N := by
  have hsplit : l.sum = N * (l.map (· / N)).sum + (l.map (· % N)).sum := by
    clear hlength
    induction l with
    | nil => rfl
    | cons v l ih =>
      have hv := Nat.div_add_mod v N
      rw [List.map_cons, List.map_cons, List.sum_cons, List.sum_cons, List.sum_cons, ih, Nat.mul_add]
      omega
  have hrest : (l.map (· % N)).sum < N * N := by
    have hcard := List.sum_le_card_nsmul (l.map (· % N)) (N - 1) fun r hr => by
      obtain ⟨v, -, rfl⟩ := List.mem_map.mp hr
      exact Nat.le_sub_one_of_lt (Nat.mod_lt v hpos)
    rw [List.length_map, hlength, smul_eq_mul] at hcard
    exact hcard.trans_lt ((Nat.mul_lt_mul_left hpos).mpr (Nat.sub_one_lt hpos.ne'))
  have hN : (0 : ℚ) < N := Nat.cast_pos.mpr hpos
  have hdiff : (l.sum : ℚ) / N - ((l.map (· / N)).sum : ℕ) = ((l.map (· % N)).sum : ℕ) / N := by
    rw [hsplit]
    push_cast
    field_simp
    ring
  rw [hdiff, abs_of_nonneg (by positivity), div_lt_iff₀ hN]
  exact_mod_cast hrest

/-- A sample with its decimals. -/
def fixed (d : Nat) (x : BitVec w.bits) : Nat := x.toNat <<< d

theorem fixed_le (x : BitVec w.bits) : fixed d x ≤ (2 ^ w.bits - 1) <<< d := by
  rw [fixed, Nat.shiftLeft_eq, Nat.shiftLeft_eq]
  exact Nat.mul_le_mul_right _ (Nat.le_sub_one_of_lt x.isLt)

/-- The shares of at most `n` samples fit in the accumulator. -/
theorem sum_fixed_lt (h : ShiftFits w d) (ys : List (BitVec w.bits)) (hlength : ys.length ≤ n.n.toNat) :
    (ys.map fun x => fixed d x / n.n.toNat).sum < 2 ^ w.following := by
  have hle := sum_shares_le (l := ys.map (fixed d)) (N := n.n.toNat)
    ((List.length_map _).trans_le hlength) (List.forall_mem_map.mpr fun x _ => fixed_le x)
  rw [List.map_map] at hle
  exact hle.trans_lt h

theorem toNat_share_store (h : ShiftFits w d) (x : BitVec w.bits) :
    ((integer w d cast).share n ((integer w d cast).store x)).toNat = fixed d x / n.n.toNat := by
  rw [toNat_share, toNat_store h, fixed]

theorem toNat_accumulator {s : State (BitVec w.bits) (BitVec w.following) ο} (h : ShiftFits w d)
    {ys : List (BitVec w.bits)}
    (hs : Averages (integer w d cast) n s (ys.map (integer w d cast).store)) :
    s.accumulator.toNat = (ys.map fun x => fixed d x / n.n.toNat).sum := by
  have hlength := hs.length_le
  rw [List.length_map] at hlength
  have hmap : ((ys.map (integer w d cast).store).map ((integer w d cast).share n)).map BitVec.toNat =
      ys.map fun x => fixed d x / n.n.toNat := by
    rw [List.map_map, List.map_map]
    exact List.map_congr_left fun x _ => toNat_share_store h x
  rw [hs.accumulator, toNat_sum (hmap ▸ sum_fixed_lt h _ hlength), hmap]

theorem Averages.noWrap {s : State (BitVec w.bits) (BitVec w.following) ο} (h : ShiftFits w d)
    {ys : List (BitVec w.bits)}
    (hs : Averages (integer w d cast) n s (ys.map (integer w d cast).store)) (x : BitVec w.bits) :
    NoWrap cast d n s x := by
  have hsum := toNat_accumulator h hs
  have hlength := hs.length_le
  have hcounter := hs.counter
  rw [List.length_map] at hlength hcounter
  unfold NoWrap
  dsimp only
  split
  next hlt =>
    rw [BitVec.lt_def, hcounter] at hlt
    have hmore := sum_fixed_lt h (n := n) (ys ++ [x]) (by simpa using hlt)
    rw [List.map_append, List.sum_append, List.map_singleton, List.sum_singleton] at hmore
    rw [hsum, toNat_share_store h]
    exact hmore
  next hge =>
    rw [BitVec.lt_def, hcounter] at hge
    have hfull : ys.length = n.n.toNat := by omega
    cases ys with
    | nil => exact absurd hfull n.pos.ne
    | cons y ys =>
      rw [List.map_cons] at hs hsum
      obtain ⟨holdest, -, -⟩ := hs.turned (by rwa [List.length_cons, List.length_map])
      have hmore := sum_fixed_lt h (n := n) (ys ++ [x]) (by simpa using hfull.le)
      rw [List.map_append, List.sum_append, List.map_singleton, List.sum_singleton] at hmore
      rw [List.sum_cons] at hsum
      refine ⟨_, holdest, ?_, ?_⟩
      · rw [toNat_share_store h]
        omega
      · rw [toNat_share_store h, toNat_share_store h]
        omega

/-- **An integer average is the sum of what the last samples contribute.** Every run stays in the
buffer and wraps in no direction; with more than `n` samples the output is the accumulator. -/
theorem integer_moving_average [Zero ο] (w : InputType) (d : Nat) (h : ShiftFits w d)
    (cast : BitVec w.following → ο) (n : Length) (x₀ : BitVec w.bits) (xs : List (BitVec w.bits)) :
    ∃ s, run (integer w d cast) n xs (init n x₀) = some s ∧ (∀ x, NoWrap cast d n s x) ∧
      (n.n.toNat < xs.length →
        s.outputValue = cast s.accumulator ∧
        s.accumulator.toNat = ((xs.rtake n.n.toNat).map fun x => (x.toNat <<< d) / n.n.toNat).sum ∧
        |(((xs.rtake n.n.toNat).map fun x => x.toNat <<< d).sum : ℚ) / n.n.toNat -
          s.accumulator.toNat| < n.n.toNat) := by
  obtain ⟨s, hs, haveraged⟩ := (averaged_init (integer w d cast) n x₀).run xs
  rw [List.nil_append] at haveraged
  have hwindow := haveraged.averages
  rw [List.rtake, List.length_map, ← List.map_drop, ← List.rtake] at hwindow
  have hsum := toNat_accumulator h hwindow
  refine ⟨s, hs, hwindow.noWrap h, fun hmore => ⟨haveraged.output.trans (if_pos (by rwa [List.length_map])), hsum, ?_⟩⟩
  have hnear := sum_shares_near n.pos (l := (xs.rtake n.n.toNat).map (fixed d)) (by
    rw [List.length_map, length_rtake, Nat.min_eq_right hmore.le])
  rw [List.map_map] at hnear
  rw [hsum]
  exact hnear

theorem integer_moving_average_bytes :
    ShiftFits .uint8 4 ∧
      ∃ s, run (integer .uint8 4 id) ⟨2#32, by decide⟩ [1, 2, 3] (init ⟨2#32, by decide⟩ 0) = some s ∧
        s.accumulator.toNat = 40 := by
  have hfits : ShiftFits .uint8 4 := by unfold ShiftFits; decide
  obtain ⟨s, hs, -, hfull⟩ := integer_moving_average .uint8 4 hfits id ⟨2#32, by decide⟩ 0 [1, 2, 3]
  exact ⟨hfits, s, hs, (hfull (by decide)).2.1⟩

end StLib.Control.MovingAverage
