import StLib.Base.CircularWindow

/-! # The ring buffer

`RingBuffer.hpp`, on a target where `size_t` has 32 bits. An access outside of the storage has
no result. -/
namespace StLib.Utilities.RingBuffer

open Base.CircularWindow

abbrev Size := BitVec 32

/-- `N`. An array has at most `PTRDIFF_MAX` bytes. -/
structure Capacity where
  n : Size
  fits : n.toNat < 2 ^ 31

variable {α : Type*}

structure Buffer (α : Type*) where
  buffer : List α
  storedItems : Size := 0#32
  front : Size := 0#32
  back : Size := 0#32

/-- `buffer{}`. -/
def Buffer.init [Inhabited α] (cap : Capacity) : Buffer α where
  buffer := List.replicate cap.n.toNat default

variable (cap : Capacity)

def moveForward (origin amount : Size) : Size := (origin + amount) % cap.n

def moveBackward (origin amount : Size) : Size :=
  (origin + cap.n * (amount / cap.n + 1#32) - amount) % cap.n

namespace Buffer

variable (r : Buffer α)

def read (index : Size) : Option α := r.buffer[index.toNat]?

def write (index : Size) (item : α) : Option (Buffer α) :=
  if index.toNat < r.buffer.length then some { r with buffer := r.buffer.set index.toNat item } else none

def size : Size := r.storedItems

def isFull : Bool := r.size ≥ cap.n

def isEmpty : Bool := r.size = 0#32

/-- The result and the buffer afterwards. -/
def push (item : α) : Option (Bool × Buffer α) :=
  if r.isFull cap then some (false, r)
  else do
    let r ← r.write r.front item
    some (true,
      { r with front := moveForward cap r.front 1#32, storedItems := r.storedItems + 1#32 })

def pop : Option (Bool × Buffer α) :=
  if r.isEmpty then some (false, r)
  else some (true,
    { r with back := moveForward cap r.back 1#32, storedItems := r.storedItems - 1#32 })

def pushPop (item : α) : Option (Bool × Buffer α) :=
  if r.isEmpty then some (false, r)
  else do
    let r ← r.write r.front item
    some (true,
      { r with front := moveForward cap r.front 1#32, back := moveForward cap r.back 1#32 })

/-- `operator[]`. -/
def get (index : Size) : Option α := r.read (moveBackward cap r.front (index + 1#32))

def last : Option α := r.read r.back

def first : Option α := r.read (moveBackward cap r.front 1#32)

end Buffer

inductive Op (α : Type*)
  | push (item : α)
  | pop
  | pushPop (item : α)

def Buffer.apply (r : Buffer α) : Op α → Option (Bool × Buffer α)
  | .push item => r.push cap item
  | .pop => r.pop cap
  | .pushPop item => r.pushPop cap item

/-- The operations in order, with what they return. -/
def Buffer.run : List (Op α) → Buffer α → Option (List Bool × Buffer α)
  | [], r => some ([], r)
  | op :: ops, r => do
    let (result, r) ← r.apply cap op
    let (results, r) ← Buffer.run ops r
    some (result :: results, r)

/-! ## The bounded first-in first-out list -/

namespace Fifo

variable (capacity : Nat)

/-- Oldest first. -/
def apply (l : List α) : Op α → Bool × List α
  | .push item => if l.length < capacity then (true, l ++ [item]) else (false, l)
  | .pop =>
    match l with
    | [] => (false, [])
    | _ :: rest => (true, rest)
  | .pushPop item =>
    match l with
    | [] => (false, [])
    | _ :: rest => (true, rest ++ [item])

def run : List (Op α) → List α → List Bool × List α
  | [], l => ([], l)
  | op :: ops, l =>
    let (result, l) := apply capacity l op
    let (results, l) := run ops l
    (result :: results, l)

end Fifo

/-! ## Indices -/

section Indices

variable {cap} {origin amount : Size}

theorem moveForward_one (h : origin.toNat < cap.n.toNat) :
    (moveForward cap origin 1#32).toNat = (origin.toNat + 1) % cap.n.toNat := by
  have hfits := cap.fits
  rw [moveForward, BitVec.toNat_umod, BitVec.toNat_add, Nat.mod_eq_of_lt (a := origin.toNat + _)]
  · rfl
  · change origin.toNat + 1 < 2 ^ 32
    omega

/-- The sum may overflow, but what is left of it after the difference does not. -/
theorem moveBackward_toNat (h : origin.toNat < cap.n.toNat) (hle : amount.toNat ≤ cap.n.toNat) :
    (moveBackward cap origin amount).toNat =
      (origin.toNat + (cap.n.toNat - amount.toNat)) % cap.n.toNat := by
  have hfits := cap.fits
  have hdifference : (origin + cap.n * (amount / cap.n + 1#32) - amount).toNat =
      origin.toNat + cap.n.toNat * (amount.toNat / cap.n.toNat + 1) - amount.toNat := by
    have hone : (1#32 : BitVec 32).toNat = 1 := rfl
    rcases Nat.lt_or_eq_of_le hle with hlt | heq
    · have hquotient : amount.toNat / cap.n.toNat = 0 := Nat.div_eq_of_lt hlt
      rw [BitVec.toNat_sub, BitVec.toNat_add, BitVec.toNat_mul, BitVec.toNat_add, BitVec.toNat_udiv,
        hquotient, hone]
      omega
    · have hquotient : amount.toNat / cap.n.toNat = 1 := by
        rw [heq]
        exact Nat.div_self (by omega)
      rw [BitVec.toNat_sub, BitVec.toNat_add, BitVec.toNat_mul, BitVec.toNat_add, BitVec.toNat_udiv,
        hquotient, hone]
      omega
  rw [moveBackward, BitVec.toNat_umod, hdifference]
  rcases Nat.lt_or_eq_of_le hle with hlt | heq
  · rw [Nat.div_eq_of_lt hlt]
    congr 1
    omega
  · rw [heq, Nat.div_self (by omega), Nat.sub_self, Nat.add_zero]
    calc (origin.toNat + cap.n.toNat * (1 + 1) - cap.n.toNat) % cap.n.toNat
        = (origin.toNat + cap.n.toNat) % cap.n.toNat := by
          congr 1
          omega
      _ = origin.toNat % cap.n.toNat := Nat.add_mod_right _ _

end Indices

/-! ## The refinement -/

/-- The buffer holds the list from `back` on. -/
structure Holds (r : Buffer α) (l : List α) : Prop where
  length : r.buffer.length = cap.n.toNat
  window : Window r.buffer r.back.toNat l
  count : r.storedItems.toNat = l.length
  back : 0 < cap.n.toNat → r.back.toNat < cap.n.toNat
  front : 0 < cap.n.toNat → r.front.toNat = (r.back.toNat + l.length) % cap.n.toNat

section Refinement

variable {cap} {r : Buffer α} {l : List α} {a b : α}

theorem holds_init [Inhabited α] (cap : Capacity) : Holds cap (Buffer.init (α := α) cap) [] where
  length := List.length_replicate
  window := .nil _ _
  count := rfl
  back h := h
  front _ := (Nat.zero_mod _).symm

theorem Holds.le (h : Holds cap r l) : l.length ≤ cap.n.toNat := h.length ▸ h.window.fits

theorem Holds.isFull (h : Holds cap r l) : r.isFull cap = true ↔ ¬ l.length < cap.n.toNat := by
  rw [Buffer.isFull, decide_eq_true_iff, ge_iff_le, BitVec.le_def, Buffer.size, h.count, not_lt]

theorem Holds.isEmpty (h : Holds cap r l) : r.isEmpty = true ↔ l = [] := by
  rw [Buffer.isEmpty, decide_eq_true_iff, Buffer.size, ← List.length_eq_zero_iff, ← h.count]
  exact ⟨fun hzero => by rw [hzero]; rfl, fun hzero => BitVec.eq_of_toNat_eq hzero⟩

theorem Holds.front_lt (h : Holds cap r l) (hpos : 0 < cap.n.toNat) : r.front.toNat < cap.n.toNat := by
  rw [h.front hpos]
  exact Nat.mod_lt _ hpos

/-- The slot after the newest element is in the storage. -/
theorem Holds.write (h : Holds cap r l) (hpos : 0 < cap.n.toNat) (a : α) :
    r.write r.front a = some { r with
      buffer := r.buffer.set ((r.back.toNat + l.length) % r.buffer.length) a } := by
  have hindex : r.front.toNat < r.buffer.length := by
    rw [h.length]
    exact h.front_lt hpos
  rw [Buffer.write, if_pos hindex, h.length, h.front hpos]

theorem Holds.front_forward (h : Holds cap r l) (hpos : 0 < cap.n.toNat) :
    (moveForward cap r.front 1#32).toNat = (r.back.toNat + l.length + 1) % cap.n.toNat := by
  rw [moveForward_one (h.front_lt hpos), h.front hpos, Nat.mod_add_mod]

theorem Holds.push (h : Holds cap r l) (hfree : l.length < cap.n.toNat) (a : α) :
    ∃ t, r.push cap a = some (true, t) ∧ Holds cap t (l ++ [a]) := by
  have hpos : 0 < cap.n.toNat := Nat.zero_lt_of_lt hfree
  have hopen : ¬ r.isFull cap = true := fun hfull => h.isFull.mp hfull hfree
  have hfits := cap.fits
  refine ⟨{ r with
    buffer := r.buffer.set ((r.back.toNat + l.length) % r.buffer.length) a
    front := moveForward cap r.front 1#32
    storedItems := r.storedItems + 1#32 }, ?_, ?_⟩
  · rw [Buffer.push, if_neg hopen, h.write hpos]
    rfl
  · refine ⟨?_, h.window.snoc (h.length ▸ hfree) a, ?_, h.back, fun _ => ?_⟩
    · exact (List.length_set ..).trans h.length
    · change (r.storedItems + 1#32).toNat = _
      have hone : (1#32 : BitVec 32).toNat = 1 := rfl
      rw [BitVec.toNat_add, h.count, hone, List.length_append, List.length_singleton]
      omega
    · rw [List.length_append, List.length_singleton, ← Nat.add_assoc]
      exact h.front_forward hpos

/-- After the oldest element is dropped. -/
theorem Holds.back_forward (h : Holds cap r (b :: l)) :
    (moveForward cap r.back 1#32).toNat = (r.back.toNat + 1) % cap.n.toNat :=
  moveForward_one (h.back (Nat.zero_lt_of_lt h.le))

theorem Holds.pop (h : Holds cap r (b :: l)) : ∃ t, r.pop cap = some (true, t) ∧ Holds cap t l := by
  have hpos : 0 < cap.n.toNat := Nat.zero_lt_of_lt h.le
  have hfilled : ¬ r.isEmpty = true := fun hempty => nomatch h.isEmpty.mp hempty
  refine ⟨{ r with
    back := moveForward cap r.back 1#32
    storedItems := r.storedItems - 1#32 }, ?_, ?_⟩
  · rw [Buffer.pop, if_neg hfilled]
  · refine ⟨h.length, ?_, ?_, fun _ => ?_, fun _ => ?_⟩
    · have hmoved := h.window.tail.mod
      rw [h.length, ← h.back_forward] at hmoved
      exact hmoved
    · change (r.storedItems - 1#32).toNat = _
      have hcount := h.count
      have hlarge := r.storedItems.isLt
      have hone : (1#32 : BitVec 32).toNat = 1 := rfl
      rw [List.length_cons] at hcount
      rw [BitVec.toNat_sub, hone, hcount]
      omega
    · change (moveForward cap r.back 1#32).toNat < _
      rw [h.back_forward]
      exact Nat.mod_lt _ hpos
    · change r.front.toNat = ((moveForward cap r.back 1#32).toNat + l.length) % _
      rw [h.back_forward, Nat.mod_add_mod, h.front hpos, List.length_cons]
      congr 1
      omega

theorem Holds.pushPop (h : Holds cap r (b :: l)) (a : α) :
    ∃ t, r.pushPop cap a = some (true, t) ∧ Holds cap t (l ++ [a]) := by
  have hpos : 0 < cap.n.toNat := Nat.zero_lt_of_lt h.le
  have hfilled : ¬ r.isEmpty = true := fun hempty => nomatch h.isEmpty.mp hempty
  refine ⟨{ r with
    buffer := r.buffer.set ((r.back.toNat + (b :: l).length) % r.buffer.length) a
    front := moveForward cap r.front 1#32
    back := moveForward cap r.back 1#32 }, ?_, ?_⟩
  · rw [Buffer.pushPop, if_neg hfilled, h.write hpos]
    rfl
  · refine ⟨?_, ?_, ?_, fun _ => ?_, fun _ => ?_⟩
    · exact (List.length_set ..).trans h.length
    · have hmoved := (h.window.rotate a).mod
      rw [List.length_set, h.length, ← h.back_forward] at hmoved
      change Window (r.buffer.set ((r.back.toNat + (b :: l).length) % r.buffer.length) a) _ _
      rw [h.length]
      exact hmoved
    · change r.storedItems.toNat = _
      rw [h.count, List.length_cons, List.length_append, List.length_singleton]
    · change (moveForward cap r.back 1#32).toNat < _
      rw [h.back_forward]
      exact Nat.mod_lt _ hpos
    · change (moveForward cap r.front 1#32).toNat = ((moveForward cap r.back 1#32).toNat + _) % _
      rw [h.front_forward hpos, h.back_forward, Nat.mod_add_mod, List.length_cons, List.length_append,
        List.length_singleton]
      congr 1
      omega

/-- An operation does to the buffer what it does to the list. -/
theorem Holds.apply (h : Holds cap r l) (op : Op α) :
    ∃ t, r.apply cap op = some ((Fifo.apply cap.n.toNat l op).1, t) ∧
      Holds cap t (Fifo.apply cap.n.toNat l op).2 := by
  cases op with
  | push item =>
    rw [Fifo.apply]
    split
    · next hfree => exact h.push hfree item
    · next hfull => exact ⟨r, by rw [Buffer.apply, Buffer.push, if_pos (h.isFull.mpr hfull)], h⟩
  | pop =>
    cases l with
    | nil => exact ⟨r, by rw [Buffer.apply, Buffer.pop, if_pos (h.isEmpty.mpr rfl)]; rfl, h⟩
    | cons b rest => exact h.pop
  | pushPop item =>
    cases l with
    | nil => exact ⟨r, by rw [Buffer.apply, Buffer.pushPop, if_pos (h.isEmpty.mpr rfl)]; rfl, h⟩
    | cons b rest => exact h.pushPop item

theorem Holds.run (ops : List (Op α)) (h : Holds cap r l) :
    ∃ t, r.run cap ops = some ((Fifo.run cap.n.toNat ops l).1, t) ∧
      Holds cap t (Fifo.run cap.n.toNat ops l).2 := by
  induction ops generalizing r l with
  | nil => exact ⟨r, rfl, h⟩
  | cons op rest ih =>
    obtain ⟨u, hu, hheld⟩ := h.apply op
    obtain ⟨t, ht, hlast⟩ := ih hheld
    refine ⟨t, ?_, hlast⟩
    rw [Buffer.run, hu]
    change (do
      let (results, r) ← Buffer.run cap rest u
      some (_ :: results, r) : Option _) = _
    rw [ht]
    rfl

/-- The `index`-th most recent element. -/
theorem Holds.get (h : Holds cap r l) (index : Size) (hindex : index.toNat < l.length) :
    r.get cap index = l.reverse[index.toNat]? := by
  have hle := h.le
  have hfits := cap.fits
  have hpos : 0 < cap.n.toNat := Nat.lt_of_lt_of_le (Nat.zero_lt_of_lt hindex) hle
  have hamount : (index + 1#32).toNat = index.toNat + 1 := by
    have hone : (1#32 : BitVec 32).toNat = 1 := rfl
    rw [BitVec.toNat_add, hone]
    omega
  have hslot : (moveBackward cap r.front (index + 1#32)).toNat =
      (r.back.toNat + (l.length - 1 - index.toNat)) % r.buffer.length := by
    rw [moveBackward_toNat (h.front_lt hpos) (by omega), hamount, h.front hpos, Nat.mod_add_mod, h.length]
    calc (r.back.toNat + l.length + (cap.n.toNat - (index.toNat + 1))) % cap.n.toNat
        = (r.back.toNat + (l.length - 1 - index.toNat) + cap.n.toNat) % cap.n.toNat := by
          congr 1
          omega
      _ = _ := Nat.add_mod_right _ _
  rw [Buffer.get, Buffer.read, hslot, h.window.slots _ (by omega), List.getElem?_reverse hindex]

theorem Holds.first (h : Holds cap r l) (hne : l ≠ []) : r.first cap = l.getLast? := by
  have hfirst : r.first cap = r.get cap 0#32 := rfl
  rw [hfirst, h.get 0#32 (List.length_pos_of_ne_nil hne), ← List.head?_reverse, List.head?_eq_getElem?]
  rfl

theorem Holds.last (h : Holds cap r l) (hne : l ≠ []) : r.last = l.head? := by
  have hfilled := List.length_pos_of_ne_nil hne
  have hpos : 0 < cap.n.toNat := Nat.lt_of_lt_of_le hfilled h.le
  have hslot := h.window.slots 0 hfilled
  rw [Nat.add_zero, h.length, Nat.mod_eq_of_lt (h.back hpos)] at hslot
  rw [Buffer.last, Buffer.read, hslot, List.head?_eq_getElem?]

end Refinement

/-- What can be observed of the buffer is what can be observed of the list. -/
structure Agrees (r : Buffer α) (l : List α) : Prop where
  size : r.size.toNat = l.length
  isFull : r.isFull cap = true ↔ l.length = cap.n.toNat
  isEmpty : r.isEmpty = true ↔ l = []
  first : l ≠ [] → r.first cap = l.getLast?
  last : l ≠ [] → r.last = l.head?
  get : ∀ index : Size, index.toNat < l.length → r.get cap index = l.reverse[index.toNat]?

/-- **The ring buffer is a bounded first-in first-out list.** For every sequence of operations
the buffer returns what the list returns, agrees with it afterwards, and never uses an index
outside of its storage. -/
theorem run_refines [Inhabited α] (cap : Capacity) (ops : List (Op α)) :
    ∃ r, (Buffer.init cap).run cap ops = some ((Fifo.run cap.n.toNat ops []).1, r) ∧
      Agrees cap r (Fifo.run cap.n.toNat ops []).2 := by
  obtain ⟨r, hr, h⟩ := (holds_init (α := α) cap).run ops
  refine ⟨r, hr, h.count, ?_, h.isEmpty, h.first, h.last, h.get⟩
  have hle := h.le
  rw [h.isFull]
  omega

end StLib.Utilities.RingBuffer
