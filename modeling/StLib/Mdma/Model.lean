import StLib.Base.FinLiterals
import StLib.Base.Runs

/-! # The MDMA

`MDMA.cpp`: eight channels, `transfer_queue`, which is a `Stack`, and the callbacks of the
HAL. Of the hardware a channel knows the transfer that is in progress on it. `PANIC`
reports and returns. -/
namespace StLib.Mdma.Model

/-- The address of a `bool` of a caller. -/
abbrev Flag := Nat

inductive HandleState
  | ready
  | busy
deriving DecidableEq

/-- The list that a transfer begins with: the one of a caller, or the node of a channel as
`transfer_data` fills it. -/
inductive FirstNode
  | list (address : BitVec 32)
  | transferNode (csar cdar cbndtr : BitVec 32)
deriving DecidableEq

/-- An element of `transfer_queue`, with its place in the order of the requests. -/
structure Request where
  number : Nat
  first : BitVec 32
  done : Option Flag
deriving DecidableEq

/-- A transfer as it was asked for; `number` is that of its request. -/
structure Transfer where
  first : FirstNode
  done : Option Flag
  number : Option Nat := none
deriving DecidableEq

def Request.transfer (r : Request) : Transfer where
  first := .list r.first
  done := r.done
  number := some r.number

/-- An instance and its bit of `instance_free_map`. -/
structure Channel where
  state : HandleState := .ready
  first : Option FirstNode := none
  done : Option Flag := none
  free : Bool := true
  running : Option Transfer := none

/-- `started` holds the numbers of the requests whose transfers were started, `requested`
counts the requests that were taken. -/
structure State where
  channels : Fin 8 → Channel := fun _ => {}
  queue : List Request := []
  flags : Flag → Bool := fun _ => false
  panics : List String := []
  requested : Nat := 0
  started : List Nat := []

/-! ## `Stack` -/

section Stack

variable {α : Type*}

def push (capacity : Nat) (value : α) (s : List α) : List α :=
  if s.length < capacity then value :: s else s

def pop (s : List α) : List α := s.tail

end Stack

def transferQueueMaxSize : Nat := 50

/-! ## Transfers -/

namespace State

def panic (message : String) (s : State) : State := { s with panics := s.panics ++ [message] }

def setChannel (i : Fin 8) (c : Channel) (s : State) : State :=
  { s with channels := Function.update s.channels i c }

/-- `*done = value`, where there is a `done`. -/
def setFlag (done : Option Flag) (value : Bool) (s : State) : State :=
  match done with
  | none => s
  | some p => { s with flags := Function.update s.flags p value }

/-- `prepare_transfer`; `ok` is what `HAL_MDMA_GenerateSWRequest` answers. -/
def prepareTransfer (i : Fin 8) (x : Transfer) (ok : Bool) (s : State) : State :=
  let c := s.channels i
  if c.state = .busy then s.panic "MDMA transfer already in progress"
  else
    let started := { c with free := false, state := .busy, first := some x.first }
    if ok then
      { s.setChannel i { started with running := some x } with
        started := s.started ++ x.number.toList }
    else (s.setChannel i started).panic "Error generating MDMA SW request"

/-- `instance.done = done`. -/
def setDone (i : Fin 8) (done : Option Flag) (s : State) : State :=
  s.setChannel i { s.channels i with done }

def popQueue (s : State) : State := { s with queue := pop s.queue }

/-- The body of the loop of `update`. -/
def serve (ok : Fin 8 → Bool) (i : Fin 8) (s : State) : State :=
  match s.queue with
  | [] => s
  | r :: _ =>
    if (s.channels i).free then
      ((s.setDone i r.done).prepareTransfer i r.transfer (ok i)).popQueue
    else s

/-- `update`; `ok i` is what the HAL answers on channel `i`. -/
def update (ok : Fin 8 → Bool) (s : State) : State :=
  (List.finRange 8).foldl (fun s i => s.serve ok i) s

def transferList (first : BitVec 32) (done : Option Flag) (s : State) : State :=
  if s.queue.length ≥ transferQueueMaxSize then s.panic "MDMA transfer queue full"
  else
    { s with
      queue := push 50 { number := s.requested, first, done } s.queue
      requested := s.requested + 1 }

/-- The loop of `transfer_data` over the channels that are left. -/
def transferDataFrom (x : Transfer) (ok : Bool) : List (Fin 8) → State → State
  | [], s => s
  | i :: rest, s =>
    if (s.channels i).free then (s.setDone i x.done).prepareTransfer i x ok
    else transferDataFrom x ok rest (s.setFlag x.done false)

def transferData (source destination length : BitVec 32) (done : Option Flag) (ok : Bool)
    (s : State) : State :=
  transferDataFrom { first := .transferNode source destination length, done } ok
    (List.finRange 8) s

/-! ## Callbacks -/

def transferCompleteCallback (i : Fin 8) (s : State) : State :=
  let c := s.channels i
  (s.setChannel i { c with state := .ready, free := true, running := none }).setFlag c.done true

/-- The HAL has stopped the channel and made its handle ready. -/
def transferErrorCallback (i : Fin 8) (s : State) : State :=
  let c := s.channels i
  ((s.setChannel i { c with state := .ready, running := none }).setFlag c.done false).panic
    "MDMA Transfer Error, code: %lu"

end State

/-! ## Runs -/

inductive Event
  | transferList (first : BitVec 32) (done : Option Flag)
  | transferData (source destination length : BitVec 32) (done : Option Flag) (ok : Bool)
  | update (ok : Fin 8 → Bool)
  | complete (i : Fin 8)
  | error (i : Fin 8)

/-- A transfer completes, or fails, where one is in progress. -/
def step (s : State) : Event → Option State
  | .transferList first done => some (s.transferList first done)
  | .transferData source destination length done ok =>
    some (s.transferData source destination length done ok)
  | .update ok => some (s.update ok)
  | .complete i =>
    if (s.channels i).running.isSome then some (s.transferCompleteCallback i) else none
  | .error i => if (s.channels i).running.isSome then some (s.transferErrorCallback i) else none

abbrev Step (s : State) (e : Event) (t : State) : Prop := step s e = some t

/-! ## What a channel that is free is used for -/

/-- A transfer is in progress on a channel only while it is marked busy, and its `done` is
the one it was asked for with. What is free has a handle that is ready. -/
structure Channel.Sound (c : Channel) : Prop where
  running : ∀ x, c.running = some x → c.free = false ∧ c.done = x.done
  free : c.free = true → c.state = .ready

def Sound (s : State) : Prop := ∀ i, (s.channels i).Sound

/-- What `prepare_transfer` makes of a channel that is free. -/
def taken (x : Transfer) (ok : Bool) (c : Channel) : Channel :=
  { c with
    done := x.done
    free := false
    state := .busy
    first := some x.first
    running := if ok then some x else c.running }

/-- The start of a transfer on a channel that is free. -/
def State.begin (i : Fin 8) (x : Transfer) (ok : Bool) (s : State) : State :=
  (s.setDone i x.done).prepareTransfer i x ok

variable {s t : State} {i j : Fin 8} {x : Transfer} {ok : Bool}

theorem begin_eq (h : Sound s) (hi : (s.channels i).free = true) :
    s.begin i x ok =
      { s with
        channels := Function.update s.channels i (taken x ok (s.channels i))
        started := if ok then s.started ++ x.number.toList else s.started
        panics := if ok then s.panics else s.panics ++ ["Error generating MDMA SW request"] } := by
  have hready : ¬ (s.channels i).state = .busy := by
    rw [(h i).free hi]
    decide
  cases ok <;>
    simp [State.begin, State.setDone, State.prepareTransfer, State.setChannel, State.panic, taken,
      hready]

/-- Nothing is in progress on a channel that is free. -/
theorem Channel.Sound.idle {c : Channel} (h : c.Sound) (hc : c.free = true) : c.running = none := by
  cases hr : c.running with
  | none => rfl
  | some x => rw [(h.running x hr).1] at hc; cases hc

theorem Sound.update {c : Channel} (h : Sound s) (hc : c.Sound)
    (ht : t.channels = Function.update s.channels i c) : Sound t := by
  intro j
  rw [ht]
  by_cases hj : j = i
  · subst hj
    rwa [Function.update_self]
  · rw [Function.update_of_ne hj]
    exact h j

theorem Sound.begin (h : Sound s) (hi : (s.channels i).free = true) : Sound (s.begin i x ok) := by
  refine h.update ⟨?_, fun hf => by cases hf⟩ (congrArg State.channels (begin_eq h hi))
  intro y hy
  cases ok with
  | true =>
    cases hy
    exact ⟨rfl, rfl⟩
  | false =>
    have hnone : (taken x false (s.channels i)).running = none := (h i).idle hi
    rw [hnone] at hy
    cases hy

/-! ### `update` -/

theorem serve_cases (ok : Fin 8 → Bool) (i : Fin 8) (s : State) :
    (s.serve ok i = s ∧ (s.queue = [] ∨ (s.channels i).free = false)) ∨
      ∃ r rest, s.queue = r :: rest ∧ (s.channels i).free = true ∧
        s.serve ok i = (s.begin i r.transfer (ok i)).popQueue := by
  unfold State.serve
  split
  next h => exact .inl ⟨rfl, .inl h⟩
  next r rest h =>
    split
    next hi => exact .inr ⟨r, rest, h, hi, rfl⟩
    next hi => exact .inl ⟨rfl, .inr (by simpa using hi)⟩

theorem Sound.serve (h : Sound s) (ok : Fin 8 → Bool) (i : Fin 8) : Sound (s.serve ok i) := by
  rcases serve_cases ok i s with ⟨he, -⟩ | ⟨r, rest, -, hi, he⟩
  · rwa [he]
  · rw [he]
    exact h.begin hi

theorem Sound.update_run (h : Sound s) (ok : Fin 8 → Bool) : Sound (s.update ok) := by
  unfold State.update
  generalize List.finRange 8 = is
  induction is generalizing s with
  | nil => exact h
  | cons i is ih => exact ih (h.serve ok i)

/-! ### `transfer_data` -/

/-- The channel that `transfer_data` takes. -/
def firstFree (s : State) : List (Fin 8) → Option (Fin 8)
  | [] => none
  | i :: rest => if (s.channels i).free then some i else firstFree s rest

theorem firstFree_congr (h : t.channels = s.channels) (is : List (Fin 8)) :
    firstFree t is = firstFree s is := by
  induction is with
  | nil => rfl
  | cons i is ih => rw [firstFree, firstFree, ih, h]

theorem firstFree_free {is : List (Fin 8)} (h : firstFree s is = some i) :
    (s.channels i).free = true := by
  induction is with
  | nil => cases h
  | cons j is ih =>
    rw [firstFree] at h
    split at h
    next hj => cases h; exact hj
    next => exact ih h

theorem setFlag_false (done : Option Flag) (s : State) :
    ∃ flags, (∀ p, flags p = true → s.flags p = true) ∧
      s.setFlag done false = { s with flags } := by
  cases done with
  | none => exact ⟨s.flags, fun _ h => h, rfl⟩
  | some q =>
    refine ⟨_, fun p hp => ?_, rfl⟩
    by_cases hq : p = q
    · rw [hq, Function.update_self] at hp
      cases hp
    · rwa [Function.update_of_ne hq] at hp

def State.beginAt (x : Transfer) (ok : Bool) : Option (Fin 8) → State → State
  | none, s => s
  | some i, s => s.begin i x ok

/-- What `transfer_data` does before it takes a channel only clears flags. -/
theorem transferDataFrom_eq (x : Transfer) (ok : Bool) (is : List (Fin 8)) (s : State) :
    ∃ flags, (∀ p, flags p = true → s.flags p = true) ∧
      s.transferDataFrom x ok is = ({ s with flags } : State).beginAt x ok (firstFree s is) := by
  induction is generalizing s with
  | nil => exact ⟨s.flags, fun _ h => h, rfl⟩
  | cons i is ih =>
    by_cases hi : (s.channels i).free = true
    · refine ⟨s.flags, fun _ h => h, ?_⟩
      rw [firstFree, State.transferDataFrom, if_pos hi, if_pos hi]
      rfl
    · obtain ⟨cleared, hcleared, he⟩ := setFlag_false x.done s
      obtain ⟨flags, hflags, hrest⟩ := ih ({ s with flags := cleared } : State)
      rw [firstFree_congr (t := { s with flags := cleared }) (s := s) rfl] at hrest
      refine ⟨flags, fun p hp => hcleared p (hflags p hp), ?_⟩
      rw [firstFree, State.transferDataFrom, if_neg hi, if_neg hi, he, hrest]

theorem Sound.transferData (h : Sound s) (source destination length : BitVec 32)
    (done : Option Flag) (ok : Bool) : Sound (s.transferData source destination length done ok) := by
  obtain ⟨flags, -, he⟩ := transferDataFrom_eq
    { first := .transferNode source destination length, done } ok (List.finRange 8) s
  rw [State.transferData, he]
  have hflags : Sound ({ s with flags } : State) := h
  cases hf : firstFree s (List.finRange 8) with
  | none => exact hflags
  | some i =>
    have hi : (s.channels i).free = true := firstFree_free hf
    exact hflags.begin hi

/-! ### Callbacks -/

theorem setFlag_eq (done : Option Flag) (value : Bool) (s : State) :
    s.setFlag done value = { s with flags := (s.setFlag done value).flags } := by
  cases done <;> rfl

theorem complete_cases (h : Step s (.complete i) t) :
    ∃ x, (s.channels i).running = some x ∧ t = s.transferCompleteCallback i := by
  obtain ⟨hrunning, h⟩ := Option.ite_none_right_eq_some.mp h
  obtain ⟨x, hx⟩ := Option.isSome_iff_exists.mp hrunning
  cases h
  exact ⟨x, hx, rfl⟩

theorem error_cases (h : Step s (.error i) t) :
    ∃ x, (s.channels i).running = some x ∧ t = s.transferErrorCallback i := by
  obtain ⟨hrunning, h⟩ := Option.ite_none_right_eq_some.mp h
  obtain ⟨x, hx⟩ := Option.isSome_iff_exists.mp hrunning
  cases h
  exact ⟨x, hx, rfl⟩

/-- **Soundness** is kept by every step. -/
theorem Sound.step {e : Event} (h : Sound s) (hs : Step s e t) : Sound t := by
  cases e with
  | transferList first done =>
    cases hs
    unfold State.transferList
    split <;> exact h
  | transferData source destination length done ok =>
    cases hs
    exact h.transferData source destination length done ok
  | update ok =>
    cases hs
    exact h.update_run ok
  | complete i =>
    obtain ⟨-, -, rfl⟩ := complete_cases hs
    refine h.update (i := i)
      (c := { s.channels i with state := .ready, free := true, running := none })
      ⟨fun x hx => ?_, fun _ => rfl⟩ ?_
    · cases hx
    · rw [State.transferCompleteCallback, setFlag_eq]
      rfl
  | error i =>
    obtain ⟨-, -, rfl⟩ := error_cases hs
    refine h.update (i := i) (c := { s.channels i with state := .ready, running := none })
      ⟨fun x hx => ?_, fun _ => rfl⟩ ?_
    · cases hx
    · rw [State.transferErrorCallback, setFlag_eq]
      rfl

/-- The MDMA once it is started. -/
def init (flags : Flag → Bool) : State := { flags }

theorem sound_init (flags : Flag → Bool) : Sound (init flags) := fun _ =>
  ⟨fun _ h => (by cases h), fun _ => rfl⟩

end StLib.Mdma.Model
