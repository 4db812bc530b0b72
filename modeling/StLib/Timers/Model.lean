import Mathlib.Logic.Function.Basic
import StLib.Base.FinLiterals

/-! # The timer domain

`TimerDomain.hpp`: the requests of a board and `TimerDomain::build`, which gives each one a
timer when the board is compiled. `compile_error` is an error; a list is accepted when no
call of it is reached. `cfgs` holds each configuration with the index of the request it is
made for; `build` returns the configurations alone. -/
namespace StLib.Timers.Model

/-! ## Requests -/

/-- An `enum : uint8_t`, which holds any value of its type. -/
abbrev TimerRequest := BitVec 8

def TimerRequest.anyGeneralPurpose : TimerRequest := 0x00#8

def TimerRequest.any32bit : TimerRequest := 0xFF#8

inductive TimerChannel
  | channel1
  | channel2
  | channel3
  | channel4
  | channel5
  | channel6
  | channel1Negated
  | channel2Negated
  | channel3Negated
  | channel4Negated
deriving DecidableEq

def TimerChannel.value : TimerChannel → Nat
  | channel1 => 1
  | channel2 => 2
  | channel3 => 3
  | channel4 => 4
  | channel5 => 5
  | channel6 => 6
  | channel1Negated => 1 ||| 8
  | channel2Negated => 2 ||| 8
  | channel3Negated => 3 ||| 8
  | channel4Negated => 4 ||| 8

inductive SelectionTrigger1
  | reset
  | enable
  | update
  | generalCompare
  | compareChannel1
  | compareChannel2
  | compareChannel3
  | compareChannel4
deriving DecidableEq

inductive SelectionTrigger2
  | reset
  | enable
  | update
  | generalCompare
  | compareChannel1
  | compareChannel2
  | compareChannel3
  | compareChannel4
  | compareChannel5
  | compareChannel6
  | compareChannel4RChannel6F
  | compareChannel4RChannel6R
  | compareChannel5RChannel6F
  | compareChannel5RChannel6R
deriving DecidableEq

/-- `pins` has `pin_count` entries; of a pin only the channel is read here. -/
structure Entry where
  request : TimerRequest := .anyGeneralPurpose
  pins : List TimerChannel := []
  trgo1 : SelectionTrigger1 := .reset
  trgo2 : SelectionTrigger2 := .reset
deriving DecidableEq, Inhabited

structure Config where
  timerIdx : BitVec 8
  trgo1 : SelectionTrigger1
  trgo2 : SelectionTrigger2
deriving DecidableEq

/-- `timer_idxmap`; `-1` stands at the timers that do not exist. -/
def timerIdxmap : Nat → BitVec 8
  | 1 => 14#8
  | 2 => 0#8
  | 3 => 1#8
  | 4 => 2#8
  | 5 => 3#8
  | 6 => 12#8
  | 7 => 13#8
  | 8 => 15#8
  | 12 => 6#8
  | 13 => 7#8
  | 14 => 8#8
  | 15 => 9#8
  | 16 => 10#8
  | 17 => 11#8
  | 23 => 4#8
  | 24 => 5#8
  | _ => -1

def maxInstances : Nat := 16

def bits32Timers : List Nat := [2, 5, 23, 24]

def upDownUpdownTimers : List Nat := [3, 4]

def bits16Timers : List Nat := [15, 16, 17]

/-- `SCHEDULER_TIMER_DOMAIN`, with the preprocessor's check of it. -/
structure SchedulerTimer where
  value : Nat := 2
  is32bit : value ∈ bits32Timers := by decide

/-- A request that names its timer. -/
def Entry.isSpecific (e : Entry) : Bool := e.request != .anyGeneralPurpose && e.request != .any32bit

def Entry.isAny32bit (e : Entry) : Bool := e.request == .any32bit

def Entry.isGeneralPurpose (e : Entry) : Bool := e.request == .anyGeneralPurpose

/-- `static_cast<uint8_t>(request)`. -/
def Entry.reqint (e : Entry) : Nat := e.request.toNat

/-! ## Checks -/

def checkPins (usedChannels : BitVec 32) : List TimerChannel → Except String Unit
  | [] => .ok ()
  | channel :: rest =>
    let channelBit := 1#32 <<< channel.value
    if usedChannels &&& channelBit ≠ 0#32 then .error "Only one pin per channel for each timer"
    else checkPins (usedChannels ||| channelBit) rest

def checkRequest (scheduler : SchedulerTimer) (e : Entry) : Except String Unit :=
  if e.reqint = scheduler.value then .error "This timer is used by the scheduler"
  else if e.isSpecific ∧ (e.reqint < 1 ∨ e.reqint > 24 ∨ (e.reqint > 17 ∧ e.reqint < 23)) then
    .error "Invalid TimerRequest value for timer"
  else checkPins 0#32 e.pins

def checkRequests (scheduler : SchedulerTimer) : List Entry → Except String Unit
  | [] => .ok ()
  | e :: rest => (checkRequest scheduler e).bind fun _ => checkRequests scheduler rest

/-! ## The passes -/

/-- The locals that the passes share; `remaining` and `count` are `remaining_requests` and
`count_remaining_requests`. -/
structure Locals where
  cfgs : List (Nat × Config) := []
  usedTimers : Nat → Bool := fun _ => false
  remaining : Nat → Nat := fun i => i
  count : Nat

/-- `requests[i]`; the passes stay in range. -/
def entry (requests : List Entry) (i : Nat) : Entry := requests.getD i default

def config (reqint : Nat) (e : Entry) : Config where
  timerIdx := timerIdxmap reqint
  trgo1 := e.trgo1
  trgo2 := e.trgo2

namespace Locals

/-- `cfgs[cfg_idx++] = cfg` for request `i`. -/
def serve (l : Locals) (i reqint : Nat) (e : Entry) : Locals :=
  { l with cfgs := l.cfgs ++ [(i, config reqint e)] }

/-- The unordered remove. -/
def remove (l : Locals) (i : Nat) : Locals :=
  { l with
    count := l.count - 1
    remaining := Function.update l.remaining i (l.remaining (l.count - 1)) }

def use (l : Locals) (reqint : Nat) : Locals :=
  { l with usedTimers := Function.update l.usedTimers reqint true }

end Locals

def specificStep (i : Nat) (e : Entry) (l : Locals) : Except String Locals :=
  if e.isSpecific then
    if l.usedTimers e.reqint then .error "Error: Timer already used"
    else .ok (((l.use e.reqint).serve i e.reqint e).remove i)
  else .ok l

/-- The requests from index `i` on. -/
def specificPass : Nat → List Entry → Locals → Except String Locals
  | _, [], l => .ok l
  | i, e :: rest, l => (specificStep i e l).bind (specificPass (i + 1) rest)

def remaining32bitTimers (scheduler : SchedulerTimer) (l : Locals) : List Nat :=
  bits32Timers.filter fun t => !l.usedTimers t && t != scheduler.value

/-- `count_32bit_requests`, which stays as it is initialised. -/
def count32bitRequests : Nat := 0

/-- The loop from index `i`, with `left` entries ahead of it. -/
def any32bitPass (requests : List Entry) (timers : List Nat) : Nat → Nat → Locals → Except String Locals
  | 0, _, l => .ok l
  | left + 1, i, l =>
    let e := entry requests (l.remaining i)
    if e.isAny32bit then
      if timers.length ≤ count32bitRequests then
        .error "No remaining 32 bit timers, there are only 4. Timers {2, 5, 23, 24}"
      else
        any32bitPass requests timers left i
          ((l.serve (l.remaining i) (timers.getD count32bitRequests 0) e).remove i)
    else any32bitPass requests timers left (i + 1) l

def remainingTimers (l : Locals) : List Nat :=
  (bits16Timers ++ upDownUpdownTimers ++ bits32Timers).filter fun t => !l.usedTimers t

/-- The loop from index `i`, with `left` entries ahead of it. -/
def generalPass (requests : List Entry) (timers : List Nat) : Nat → Nat → Locals → Except String Locals
  | 0, _, l => .ok l
  | left + 1, i, l =>
    let e := entry requests (l.remaining i)
    if e.isGeneralPurpose then
      generalPass requests timers left (i + 1) (l.serve (l.remaining i) (timers.getD i 0) e)
    else .error "This only processes TimerRequest::AnyGeneralPurpose"

/-- `build` up to its result, each configuration with its request. -/
def assign (scheduler : SchedulerTimer) (requests : List Entry) : Except String (List (Nat × Config)) := do
  if requests.length > maxInstances then
    throw "too many Timer requests, there are only 16 timers"
  checkRequests scheduler requests
  let specific ← specificPass 0 requests { count := requests.length }
  let any ← any32bitPass requests (remaining32bitTimers scheduler specific) specific.count 0 specific
  if any.count > (remainingTimers any).length then throw "This should not happen"
  let all ← generalPass requests (remainingTimers any) any.count 0 any
  return all.cfgs

def build (scheduler : SchedulerTimer) (requests : List Entry) : Except String (List Config) :=
  (assign scheduler requests).map (List.map Prod.snd)

/-! ## Devices -/

/-- `Board::owner_index_of`, from index `i` on; a device is its address. -/
def ownerIndexOf (target : Nat) : Nat → List Nat → Except String Nat
  | _, [] => .error "Device not registered in domain"
  | i, owner :: rest => if owner = target then .ok i else ownerIndexOf target (i + 1) rest

/-- The configuration behind `Board::instance_of`: `init` fills `instances[i]` from `cfgs[i]`. -/
def instanceOf (owners : List Nat) (cfgs : List Config) (target : Nat) : Except String (Option Config) :=
  (ownerIndexOf target 0 owners).map fun i => cfgs[i]?

end StLib.Timers.Model
