import StLib.Base.Interrupts
import StLib.Scheduler.Reentrancy

/-! # The calls, access by access

Each call as the accesses it makes to what `on_timer_update` shares with it. Inside a
section that is closed an access may be several of the source's; where the interrupt can
be taken they are the source's own. `schedule_next_interval` has a section of its own, and
is only called inside another. -/
namespace StLib.Scheduler.Interleaving

open StLib.Base.Runs StLib.Base.Interrupts StLib.Scheduler.Model StLib.Scheduler.Invariant
open StLib.Scheduler.Reentrancy

/-- `on_timer_update`. -/
def interrupt (s : State) : Option State := (onTimerUpdate s).map Prod.fst

/-! ## Programs -/

def setField (slot : Slot) (f : Task → Task) (s : State) : State := s.setTask slot (f (s.tasks slot))

/-- The count goes into the tick, `cnt_temp` on the way. -/
def moveCount (k : Program State) : Program State :=
  .read fun s =>
    let cntTemp := s.timer.cnt
    .write (fun s => { s with timer := { s.timer with cnt := 0#32 } }) <|
    .read fun s =>
      let tick := s.globalTickUs
      .write (fun s => { s with globalTickUs := tick + cntTemp.setWidth 64 }) k

/-- What `schedule_next_interval` does with the difference it found in its section. -/
def armInterval (diff : BitVec 32) (k : Program State) : Program State :=
  let enable := .write (fun s => { s with timer := { s.timer with cen := true } }) k
  if -1 ≤ diff.toInt ∧ diff.toInt ≤ 1 then
    .write (fun s => { s with currentIntervalUs := 1#32 }) <|
    .write (fun s => { s with timer := s.timer.generateUpdate }) enable
  else
    let interval := if diff.toInt < -1 then 0#32 - diff else diff
    .write (fun s => { s with currentIntervalUs := interval }) <|
    .read fun s =>
      let arr := s.currentIntervalUs - 1#32
      .write (fun s => { s with timer := { s.timer with arr := arr } }) <|
      .read fun s => if s.timer.arr < s.timer.cnt then moveCount enable else enable

def scheduleProgram (k : Program State) : Program State :=
  .read fun s =>
    if s.activeTaskCount = 0#32 then
      .write (fun s => { s with timer := { s.timer with cen := false } }) <|
      .write (fun s => { s with currentIntervalUs := 0#32 }) <|
      .write (fun s => { s with timer := { s.timer with cnt := 0#32 } }) k
    else
      .lock <| .read fun s =>
        let diff := (s.tasks (frontId s)).nextFireUs - s.globalTickUs.setWidth 32
        .unlock (armInterval diff k)

/-- The section `register_task` and `set_timeout` end with. -/
def armProgram (slot : Slot) (periodUs : BitVec 32) : Program State :=
  .lock <|
  .write (fun s => setField slot (fun task => { task with
    nextFireUs :=
      (s.globalTickUs + s.timer.cnt.setWidth 64 + periodUs.setWidth 64).setWidth 32 }) s) <|
  .write (insertSorted · slot) <|
  scheduleProgram <| .unlock .ret

def registerProgram (periodUs : BitVec 32) : Option Callback → Program State
  | none => .ret
  | some func =>
    let periodUs := if periodUs = 0#32 then 1#32 else periodUs
    if kMaxIntervalUs ≤ periodUs.toNat then .ret
    else
      .act (fun s => (allocateSlot s).2) fun s =>
        match (allocateSlot s).1 with
        | none => .ret
        | some slot =>
          .write (setField slot fun task => { task with callback := some func }) <|
          .write (setField slot fun task => { task with periodUs }) <|
          .write (setField slot fun task => { task with repeating := true }) <|
          .write (setField slot fun task => { task with id := BitVec.ofNat 16 slot.val }) <|
          armProgram slot periodUs

def timeoutProgram (microseconds : BitVec 32) : Option Callback → Program State
  | none => .ret
  | some func =>
    let microseconds := if microseconds = 0#32 then 1#32 else microseconds
    if kMaxIntervalUs ≤ microseconds.toNat then .ret
    else
      .act (fun s => (allocateSlot s).2) fun s =>
        match (allocateSlot s).1 with
        | none => .ret
        | some slot =>
          .write (setField slot fun task => { task with callback := some func }) <|
          .write (setField slot fun task => { task with periodUs := microseconds }) <|
          .write (setField slot fun task => { task with repeating := false }) <|
          .read fun s =>
            let id := BitVec.ofNat 16 slot.val + s.timeoutIdx * BitVec.ofNat 16 kMaxTasks
            .write (setField slot fun task => { task with id }) <|
            .write (fun s => { s with timeoutIdx := s.timeoutIdx + 2#16 }) <|
            armProgram slot microseconds

/-- The section `unregister_task` and `cancel_timeout` end with. -/
def dropProgram (slot : Slot) : Program State :=
  .lock <|
  .write (removeSorted · slot) <|
  .write (releaseSlot · slot) <|
  scheduleProgram <| .unlock .ret

def unregisterProgram (id : BitVec 16) : Program State :=
  if h : id.toNat < kMaxTasks then
    .read fun s =>
      if s.freeBitmap &&& (1#32 <<< id.toNat) ≠ 0#32 then .ret else dropProgram ⟨id.toNat, h⟩
  else .ret

def cancelProgram (id : BitVec 16) : Program State :=
  let idx := slotOfId id
  .read fun s =>
    if (s.tasks idx).repeating then .ret
    else .read fun s =>
      if (s.tasks idx).id ≠ id then .ret
      else .read fun s => if s.freeBitmap &&& bit idx ≠ 0#32 then .ret else dropProgram idx

def program : Call → Program State
  | .registerTask p f => registerProgram p f
  | .setTimeout p f => timeoutProgram p f
  | .unregisterTask id => unregisterProgram id
  | .cancelTimeout id => cancelProgram id

/-! ## Without interrupts they are the calls -/

@[simp] theorem run_read (k : State → Program State) (s : State) :
    (Program.read k).run s = (k s).run s := rfl

@[simp] theorem run_write (f : State → State) (k : Program State) (s : State) :
    (Program.write f k).run s = k.run (f s) := rfl

theorem scheduleProgram_run (k : Program State) (s : State) :
    (scheduleProgram k).run s = k.run (scheduleNextInterval s) := by
  simp only [scheduleProgram, run_read, scheduleNextInterval]
  by_cases h0 : s.activeTaskCount = 0#32
  · simp only [if_pos h0, run_write]
  · simp only [if_neg h0, Program.run, run_read]
    generalize (s.tasks (frontId s)).nextFireUs - s.globalTickUs.setWidth 32 = diff
    rw [armInterval]
    by_cases hnear : -1 ≤ diff.toInt ∧ diff.toInt ≤ 1
    · simp only [if_pos hnear, run_write]
    · simp only [if_neg hnear, run_write, run_read]
      generalize (if diff.toInt < -1 then 0#32 - diff else diff) = interval
      by_cases hover : interval - 1#32 < s.timer.cnt
      · simp only [if_pos hover, moveCount, run_read, run_write]
      · simp only [if_neg hover, run_write]

theorem setField_setField (slot : Slot) (f g : Task → Task) (s : State) :
    setField slot g (setField slot f s) = setField slot (g ∘ f) s := by
  have hself : (s.setTask slot (f (s.tasks slot))).tasks slot = f (s.tasks slot) :=
    Function.update_self ..
  rw [setField, setField, hself]
  exact congrArg ({ s with tasks := · }) (Function.update_idem ..)

theorem armProgram_run (slot : Slot) (periodUs : BitVec 32) (s : State) :
    (armProgram slot periodUs).run s = armTask s slot periodUs := by
  rw [armProgram, Program.run, run_write, run_write, scheduleProgram_run]
  rfl

theorem dropProgram_run (slot : Slot) (s : State) :
    (dropProgram slot).run s = dropTask s slot := by
  rw [dropProgram, Program.run, run_write, run_write, scheduleProgram_run]
  rfl

theorem registerProgram_run (p : BitVec 32) (f : Option Callback) (s : State) :
    (registerProgram p f).run s = (registerTask p f s).2 := by
  cases f with
  | none => rfl
  | some f =>
    rw [registerProgram, registerTask]
    dsimp only
    generalize (if p = 0#32 then 1#32 else p) = period
    split
    next => rfl
    next =>
      rw [Program.run]
      rcases allocateSlot s with ⟨_ | slot, s'⟩
      · rfl
      · simp only [run_write, setField_setField, armProgram_run]
        rfl

theorem timeoutProgram_run (p : BitVec 32) (f : Option Callback) (s : State) :
    (timeoutProgram p f).run s = (setTimeout p f s).2 := by
  cases f with
  | none => rfl
  | some f =>
    rw [timeoutProgram, setTimeout]
    dsimp only
    generalize (if p = 0#32 then 1#32 else p) = period
    split
    next => rfl
    next =>
      rw [Program.run]
      rcases allocateSlot s with ⟨_ | slot, s'⟩
      · rfl
      · simp only [run_write, run_read, setField_setField, armProgram_run]
        rfl

theorem program_run (c : Call) (s : State) : (program c).run s = c.run s := by
  cases c with
  | registerTask p f => exact registerProgram_run p f s
  | setTimeout p f => exact timeoutProgram_run p f s
  | unregisterTask id =>
    show (unregisterProgram id).run s = (unregisterTask id s).2
    rw [unregisterProgram, unregisterTask]
    split
    next =>
      rw [run_read]
      split
      next => rfl
      next => exact dropProgram_run _ s
    next => rfl
  | cancelTimeout id =>
    show (cancelProgram id).run s = (cancelTimeout id s).2
    rw [cancelProgram, cancelTimeout, run_read]
    split
    next => rfl
    next =>
      rw [run_read]
      split
      next => rfl
      next =>
        rw [run_read]
        split
        next => rfl
        next => exact dropProgram_run _ s

end StLib.Scheduler.Interleaving
