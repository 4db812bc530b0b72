import StLib.Base.FinLiterals
import StLib.Base.SortedQueue

/-! # The tickless scheduler

`Scheduler.cpp` and `Scheduler.hpp`, word for word: sixteen task slots, a queue
of slot ids packed in a 64-bit word, the ready and free bitmaps, and the timer
registers the code writes. The static members are the fields of `State`; a
member function is a function on `State`. Each function runs with the timer
interrupt held off, so the interrupt is an operation of its own
(`onTimerUpdate`) and the NVIC enable bit is not modelled. -/
namespace StLib.Scheduler.Model

open StLib.Base.SortedQueue

/-- An index into `tasks_`. The code keeps ids in a `uint8_t`; `getAt` and
`frontId` mask them to four bits. -/
abbrev Slot := Fin 16

/-- A `callback_t`; a null pointer is the `none` of `Option Callback`. -/
abbrev Callback := Nat

def kMaxTasks : Nat := 16

/-- `INVALID_ID`, twice `kMaxTasks`. -/
def invalidId : BitVec 16 := 32#16

/-- `kMaxIntervalUs`: half the range of the 32-bit deadlines. -/
def kMaxIntervalUs : Nat := 4294967295 / 2 + 1

structure Task where
  nextFireUs : BitVec 32 := 0#32
  callback : Option Callback := none
  periodUs : BitVec 32 := 0#32
  id : BitVec 16 := 0#16
  repeating : Bool := false
deriving DecidableEq

/-- The registers of `Scheduler_global_timer` the code uses: `CNT`, `ARR`, the
enable bit of `CR1` and the update flag of `SR`. -/
structure Timer where
  cnt : BitVec 32 := 0#32
  arr : BitVec 32 := 0#32
  cen : Bool := false
  uif : Bool := false
deriving DecidableEq

/-- `SET_BIT(EGR, TIM_EGR_UG)`: an update event restarts the counter and raises
the update flag. -/
def Timer.generateUpdate (t : Timer) : Timer := { t with cnt := 0#32, uif := true }

structure State where
  tasks : Slot → Task := fun _ => {}
  sortedTaskIds : BitVec 64 := 0#64
  activeTaskCount : BitVec 32 := 0#32
  readyBitmap : BitVec 32 := 0#32
  freeBitmap : BitVec 32 := 0xFFFFFFFF#32
  globalTickUs : BitVec 64 := 0#64
  currentIntervalUs : BitVec 32 := 0#32
  timeoutIdx : BitVec 16 := 1#16
  failingId : BitVec 16 := invalidId
  timer : Timer := {}

/-! ## Slots and bitmaps -/

def bit (i : Slot) : BitVec 32 := 1#32 <<< i.val

def State.isFree (s : State) (i : Slot) : Bool := s.freeBitmap.getLsbD i.val
def State.isReady (s : State) (i : Slot) : Bool := s.readyBitmap.getLsbD i.val

def State.setTask (s : State) (i : Slot) (t : Task) : State :=
  { s with tasks := Function.update s.tasks i t }

/-- `__builtin_ffs`: one more than the index of the lowest set bit, 0 for 0. -/
def builtinFfs (x : BitVec 32) : Nat := if x = 0#32 then 0 else x.ctz.toNat + 1

/-- `allocate_slot`; `none` is `INVALID_ID`. -/
def allocateSlot (s : State) : Option Slot × State :=
  let idx := BitVec.ofNat 32 (builtinFfs s.freeBitmap) - 1#32
  if h : idx.toNat < kMaxTasks then
    (some ⟨idx.toNat, h⟩, { s with freeBitmap := s.freeBitmap &&& ~~~(1#32 <<< idx.toNat) })
  else (none, s)

def releaseSlot (s : State) (id : Slot) : State :=
  { s with readyBitmap := s.readyBitmap &&& ~~~bit id, freeBitmap := s.freeBitmap ||| bit id }

/-! ## The packed queue -/

def getAt (s : State) (idx : BitVec 8) : Slot :=
  Fin.ofNat 16 ((s.sortedTaskIds >>> (idx.toNat * 4)) &&& 0xF#64).toNat

def frontId (s : State) : Slot := Fin.ofNat 16 (s.sortedTaskIds.setWidth 8 &&& 0xF#8).toNat

def popFront (s : State) : State :=
  { s with activeTaskCount := s.activeTaskCount - 1#32, sortedTaskIds := s.sortedTaskIds >>> 4 }

/-- The binary search of `insert_sorted`: after every queued task whose deadline
the new one is not before, by signed difference. -/
def insertPos (s : State) (id : Slot) : Nat :=
  search (fun mid => decide
    (0 ≤ ((s.tasks id).nextFireUs - (s.tasks (getAt s (BitVec.ofNat 8 mid))).nextFireUs).toInt))
    32 0 s.activeTaskCount.toNat

/-- The word `insert_sorted` writes: the half that holds `pos` is opened for the
id, and a low half spills its top nibble into the high one. -/
def openNibble (word : BitVec 64) (pos : Nat) (id : Slot) : BitVec 64 :=
  let lo := word.setWidth 32
  let hi := (word >>> 32).setWidth 32
  let shift := (pos &&& 7) <<< 2
  let idShifted := BitVec.ofNat 32 id.val <<< shift
  let mask := (1#32 <<< shift) - 1#32
  let invMask := ~~~mask
  let loModified := ((lo &&& invMask) <<< 4) ||| (lo &&& mask) ||| idShifted
  let hiModified := ((hi &&& invMask) <<< 4) ||| (hi &&& mask) ||| idShifted
  let hiSpilled := (hi <<< 4) ||| (lo >>> 28)
  let hi' := if 8 ≤ pos then hiModified else hiSpilled
  let lo' := if 8 ≤ pos then lo else loModified
  (hi'.setWidth 64 <<< 32) ||| lo'.setWidth 64

def insertSorted (s : State) (id : Slot) : State :=
  { s with
    sortedTaskIds := openNibble s.sortedTaskIds (insertPos s id) id
    activeTaskCount := s.activeTaskCount + 1#32 }

/-- `id` in every nibble. -/
def nibblePattern (id : Slot) : BitVec 64 :=
  let p := BitVec.ofNat 32 id.val + (BitVec.ofNat 32 id.val <<< 4)
  let p := p + (p <<< 8)
  let p := p + (p <<< 16)
  (p.setWidth 64 <<< 32) ||| p.setWidth 64

/-- The word `remove_sorted` writes: the nibbles below the bit stay, those above
move down by one. -/
def closeNibble (word : BitVec 64) (posLsb : Nat) : BitVec 64 :=
  let mask := (1#64 <<< posLsb) - 1#64
  (word &&& mask) ||| ((word >>> 4) &&& ~~~mask)

def removeSorted (s : State) (id : Slot) : State :=
  let nibbleLsb := 0x1111111111111111#64
  let diff := s.sortedTaskIds ^^^ nibblePattern id
  let nibbleMsb := 0x8888888888888888#64
  let matches_ := (diff - nibbleLsb) &&& (~~~diff &&& nibbleMsb)
  if matches_ = 0#64 then s
  else
    { s with
      sortedTaskIds := closeNibble s.sortedTaskIds (matches_.ctz.toNat - 3)
      activeTaskCount := s.activeTaskCount - 1#32 }

/-! ## Arming the timer -/

/-- `schedule_next_interval`. The signed difference is kept as its 32 bits;
`0 - diff` is the wrapping one the compiled code computes. -/
def scheduleNextInterval (s : State) : State :=
  if s.activeTaskCount = 0#32 then
    { s with currentIntervalUs := 0#32, timer := { s.timer with cen := false, cnt := 0#32 } }
  else
    let diff := (s.tasks (frontId s)).nextFireUs - s.globalTickUs.setWidth 32
    if -1 ≤ diff.toInt ∧ diff.toInt ≤ 1 then
      { s with
        currentIntervalUs := 1#32
        timer := { s.timer.generateUpdate with cen := true } }
    else
      let interval := if diff.toInt < -1 then 0#32 - diff else diff
      let arr := interval - 1#32
      if arr < s.timer.cnt then
        { s with
          currentIntervalUs := interval
          globalTickUs := s.globalTickUs + s.timer.cnt.setWidth 64
          timer := { s.timer with arr := arr, cnt := 0#32, cen := true } }
      else
        { s with currentIntervalUs := interval, timer := { s.timer with arr := arr, cen := true } }

/-- One round of the loop in `on_timer_update`: the head leaves the queue, is
marked ready, and goes back in when it repeats. -/
def fireHead (s : State) : State :=
  let candidateId := frontId s
  let s := popFront s
  let s := if s.readyBitmap &&& bit candidateId ≠ 0#32
    then { s with failingId := BitVec.ofNat 16 candidateId.val } else s
  let s := { s with readyBitmap := s.readyBitmap ||| bit candidateId }
  let task := s.tasks candidateId
  if task.repeating then
    let nextFireUs := (s.globalTickUs + task.periodUs.setWidth 64).setWidth 32
    insertSorted (s.setTask candidateId { task with nextFireUs }) candidateId
  else s

/-- The loop of `on_timer_update`, with the ids it marks ready, in order. The
first argument bounds the rounds; `none` means the bound was hit. -/
def popDue : Nat → State → Option (State × List Slot)
  | 0, _ => none
  | rounds + 1, s =>
    if s.activeTaskCount = 0#32 then some (s, [])
    else
      let diff := (s.tasks (frontId s)).nextFireUs - s.globalTickUs.setWidth 32
      if 0 < diff.toInt then some (s, [])
      else (popDue rounds (fireHead s)).map fun r => (r.1, frontId s :: r.2)

/-- `on_timer_update`, with the ids it marks ready. -/
def onTimerUpdate (s : State) : Option (State × List Slot) :=
  (popDue 17 { s with globalTickUs := s.globalTickUs + s.currentIntervalUs.setWidth 64 }).map
    fun r => (scheduleNextInterval r.1, r.2)

/-! ## The API -/

/-- The critical section `register_task` and `set_timeout` end with. -/
def armTask (s : State) (slot : Slot) (periodUs : BitVec 32) : State :=
  let nextFireUs :=
    (s.globalTickUs + s.timer.cnt.setWidth 64 + periodUs.setWidth 64).setWidth 32
  scheduleNextInterval
    (insertSorted (s.setTask slot { s.tasks slot with nextFireUs }) slot)

def registerTask (periodUs : BitVec 32) (func : Option Callback) (s : State) :
    BitVec 16 × State :=
  match func with
  | none => (invalidId, s)
  | some func =>
    let periodUs := if periodUs = 0#32 then 1#32 else periodUs
    if kMaxIntervalUs ≤ periodUs.toNat then (invalidId, s)
    else
      match allocateSlot s with
      | (none, s) => (invalidId, s)
      | (some slot, s) =>
        let id := BitVec.ofNat 16 slot.val
        let task := { s.tasks slot with callback := some func, periodUs, repeating := true, id }
        (id, armTask (s.setTask slot task) slot periodUs)

def setTimeout (microseconds : BitVec 32) (func : Option Callback) (s : State) :
    BitVec 16 × State :=
  match func with
  | none => (invalidId, s)
  | some func =>
    let microseconds := if microseconds = 0#32 then 1#32 else microseconds
    if kMaxIntervalUs ≤ microseconds.toNat then (invalidId, s)
    else
      match allocateSlot s with
      | (none, s) => (invalidId, s)
      | (some slot, s) =>
        let id := BitVec.ofNat 16 slot.val + s.timeoutIdx * BitVec.ofNat 16 kMaxTasks
        let task := { s.tasks slot with
          callback := some func, periodUs := microseconds, repeating := false, id }
        let s := { s.setTask slot task with timeoutIdx := s.timeoutIdx + 2#16 }
        (id, armTask s slot microseconds)

/-- The critical section `unregister_task` and `cancel_timeout` end with. -/
def dropTask (s : State) (slot : Slot) : State :=
  scheduleNextInterval (releaseSlot (removeSorted s slot) slot)

def unregisterTask (id : BitVec 16) (s : State) : Bool × State :=
  if h : id.toNat < kMaxTasks then
    if s.freeBitmap &&& (1#32 <<< id.toNat) ≠ 0#32 then (false, s)
    else (true, dropTask s ⟨id.toNat, h⟩)
  else (false, s)

/-- The slot an id names: its low four bits. -/
def slotOfId (id : BitVec 16) : Slot := Fin.ofNat 16 (id &&& 15#16).toNat

def cancelTimeout (id : BitVec 16) (s : State) : Bool × State :=
  let idx := slotOfId id
  if (s.tasks idx).repeating then (false, s)
  else if (s.tasks idx).id ≠ id then (false, s)
  else if s.freeBitmap &&& bit idx ≠ 0#32 then (false, s)
  else (true, dropTask s idx)

/-- The static initialisers and `Scheduler_start`, which arms an empty queue.
The prescaler, the interrupt enable and the clock division it also writes are
read by no other function here. -/
def initial : State := scheduleNextInterval { timer := { cnt := 0#32, arr := 0#32, uif := false } }

/-! ## Calls, callbacks and `update` -/

/-- The calls a program or a task callback makes. -/
inductive Call
  | registerTask (periodUs : BitVec 32) (func : Option Callback)
  | setTimeout (microseconds : BitVec 32) (func : Option Callback)
  | unregisterTask (id : BitVec 16)
  | cancelTimeout (id : BitVec 16)
deriving DecidableEq

/-- The period a call asks for; the API takes 0 as 1. -/
def Call.periodUs : Call → BitVec 32
  | .registerTask p _ | .setTimeout p _ => if p = 0#32 then 1#32 else p
  | _ => 0#32

/-- The counter register as an operation finds it. -/
def State.atCount (s : State) (cnt : BitVec 32) : State :=
  { s with timer := { s.timer with cnt } }

def Call.run : Call → State → State
  | .registerTask p f, s => (Model.registerTask p f s).2
  | .setTimeout p f, s => (Model.setTimeout p f s).2
  | .unregisterTask id, s => (Model.unregisterTask id s).2
  | .cancelTimeout id, s => (Model.cancelTimeout id s).2

/-- The slot a removing call frees, when it returns true. -/
def Call.removes : Call → State → Option Slot
  | .unregisterTask id, s =>
    if (Model.unregisterTask id s).1 then some (slotOfId id) else none
  | .cancelTimeout id, s =>
    if (Model.cancelTimeout id s).1 then some (slotOfId id) else none
  | _, _ => none

/-- The slot an adding call takes: the lowest free one, when the call takes it. -/
def Call.adds (c : Call) (s : State) : Option Slot :=
  (allocateSlot s).1.filter fun slot => !(c.run s).isFree slot

/-- The calls one invocation of a callback makes, each with the counter it finds. -/
abbrev Script := List (BitVec 32 × Call)

def runScript : Script → State → State
  | [], s => s
  | (cnt, c) :: rest, s => runScript rest (c.run (s.atCount cnt))

/-- The slots the calls of a script free, in order. -/
def scriptRemoves : Script → State → List Slot
  | [], _ => []
  | (cnt, c) :: rest, s =>
    (c.removes (s.atCount cnt)).toList ++ scriptRemoves rest (c.run (s.atCount cnt))

/-- What `update` does after a callback returns. -/
def finishDispatch (s : State) (slot : Slot) : State :=
  let s := { s with readyBitmap := s.readyBitmap &&& ~~~bit slot }
  if (s.tasks slot).repeating then s else releaseSlot s slot

/-- One dispatch of `update`: the slot whose callback ran, the state it ran
from and the calls it made. -/
structure Dispatch where
  slot : Slot
  before : State
  script : Script

/-- The state when the callback returns. -/
def Dispatch.returned (d : Dispatch) : State := runScript d.script d.before

/-- The state when the dispatch is over. -/
def Dispatch.after (d : Dispatch) : State := finishDispatch d.returned d.slot

/-- The loop of `update`. `scripts n` is what the `n`-th dispatched callback
calls. `none` is a ready bit with no slot, or the bound on the rounds. -/
def dispatchReady (scripts : Nat → Script) : Nat → Nat → State → Option (State × List Dispatch)
  | 0, _, s => if s.readyBitmap = 0#32 then some (s, []) else none
  | rounds + 1, n, s =>
    if s.readyBitmap = 0#32 then some (s, [])
    else
      let bitIndex := s.readyBitmap.ctz.toNat
      if h : bitIndex < kMaxTasks then
        let d : Dispatch := ⟨⟨bitIndex, h⟩, s, scripts n⟩
        (dispatchReady scripts rounds (n + 1) d.after).map fun r => (r.1, d :: r.2)
      else none

/-- `update`, with the dispatches it made. The warning it prints for a task that
was too slow is not modelled; the id it clears is. -/
def update (scripts : Nat → Script) (s : State) : Option (State × List Dispatch) :=
  dispatchReady scripts 32 0 (if s.failingId ≠ invalidId then { s with failingId := invalidId }
    else s)

/-! ## Operations and their steps -/

inductive Op
  | call (c : Call)
  | timerInterrupt
  | update (scripts : Nat → Script)

/-- An operation with the counter it finds. -/
abbrev Label := BitVec 32 × Op

def Op.run : Op → State → Option State
  | .call c, s => some (c.run s)
  | .timerInterrupt, s => (onTimerUpdate s).map Prod.fst
  | .update scripts, s => (Model.update scripts s).map Prod.fst

def Step (s : State) (l : Label) (s' : State) : Prop := l.2.run (s.atCount l.1) = some s'

end StLib.Scheduler.Model
