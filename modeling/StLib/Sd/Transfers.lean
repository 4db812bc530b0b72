import StLib.Base.Runs

/-! # The transfers of an SD card

`Sd.hpp` and `Sd.cpp`: `read_blocks` and `write_blocks`, the two buffers, and the handlers
of the interrupt. A call is two steps: the interrupts are enabled with the command, and the
flag is registered behind it. `PANIC` reports and returns. -/
namespace StLib.Sd.Transfers

open StLib.Base.Runs

/-- The address of a `bool` of a caller. -/
abbrev Flag := Nat

inductive BufferSelect
  | buffer0
  | buffer1
deriving DecidableEq

def BufferSelect.other : BufferSelect → BufferSelect
  | buffer0 => buffer1
  | buffer1 => buffer0

inductive Direction
  | read
  | write
deriving DecidableEq

inductive Status
  | ok
  | error
  | busy
deriving DecidableEq

/-- What stays as it was set up: the size of a buffer, the blocks of the card, the registers
of the IDMA, the pins that are there. -/
structure Config where
  bufferSize : Nat
  logBlockNbr : BitVec 32
  idmabsize : BitVec 32
  idmabase0 : BitVec 32
  idmabase1 : BitVec 32
  hasCd : Bool
  hasWp : Bool

/-- The blocks that a buffer holds. -/
def Config.blocks (cfg : Config) : Nat := cfg.bufferSize / 512

/-- A transfer of the IDMA: the buffer it is at and the blocks from there on. -/
structure Transfer where
  direction : Direction
  flag : Flag
  buffer : BufferSelect
  left : Nat
deriving DecidableEq

/-- The instance, the flags, and the transfer in progress. `pending` is the flag of a call
between its command and its end. `completed` holds the flags whose transfer has completed
since they were last used. -/
structure State where
  operationFlag : Option Flag := none
  cardInitialized : Bool := true
  currentBuffer : BufferSelect := .buffer0
  ready : Bool := true
  flags : Flag → Bool := fun _ => false
  panics : List String := []
  pending : Option Flag := none
  transfer : Option Transfer := none
  completed : Flag → Bool := fun _ => false

/-- A call and what the pins, the card and the command answer it. -/
structure Call where
  direction : Direction
  startBlock : BitVec 32
  numBlocks : BitVec 32
  flag : Flag
  isCardPresent : Bool := true
  isWriteProtected : Bool := false
  cardTransfer : Bool := true
  command : Bool := true

/-- The IDMA goes on with the other buffer when one is full, or empty. -/
def Transfer.next (cfg : Config) (t : Transfer) : Transfer :=
  { t with buffer := t.buffer.other, left := t.left - cfg.blocks }

namespace State

variable (cfg : Config)

def panic (message : String) (s : State) : State := { s with panics := s.panics ++ [message] }

/-- `PANIC` under a condition. -/
def panicIf (p : Bool) (message : String) (s : State) : State := if p then s.panic message else s

def switchBuffer (s : State) : State := { s with currentBuffer := s.currentBuffer.other }

/-- The part before the command answers an error. -/
def rejects (c : Call) : Bool :=
  cfg.logBlockNbr < c.startBlock + c.numBlocks ||
    (cfg.idmabsize == 0 || cfg.idmabase0 == 0 || cfg.idmabase1 == 0)

/-- What the two functions have in common. The IDMA starts with the buffer that was
current. -/
def blocksDMAMultiBuffer (c : Call) (s : State) : Status × State :=
  if s.ready then
    if rejects cfg c then (.error, s)
    else
      let buffer := s.currentBuffer
      let s := ({ s with ready := false }).switchBuffer
      if c.command then
        (.ok, { s with
          transfer := some
            { direction := c.direction, flag := c.flag, buffer, left := c.numBlocks.toNat } })
      else (.error, { s with ready := true })
  else (.busy, s)

/-- `Not_HAL_SDEx_ReadBlocksDMAMultiBuffer`. -/
def notHalReadBlocks (c : Call) (s : State) : Status × State :=
  blocksDMAMultiBuffer cfg { c with direction := .read } s

/-- `Not_HAL_SDEx_WriteBlocksDMAMultiBuffer`. -/
def notHalWriteBlocks (c : Call) (s : State) : Status × State :=
  blocksDMAMultiBuffer cfg { c with direction := .write } s

def checkCdWp (c : Call) (s : State) : State :=
  (s.panicIf (cfg.hasCd && !c.isCardPresent) "SD Card not present").panicIf
    (cfg.hasWp && c.isWriteProtected) "SD Card is write-protected"

/-- The checks of a call. -/
def check (tooMany : String) (c : Call) (s : State) : State :=
  ((s.checkCdWp cfg c).panicIf (!s.cardInitialized) "SD Card not initialized").panicIf
    (c.numBlocks.toNat > cfg.blocks) tooMany

/-- A call up to where its flag is registered; without the card it returns `false`. -/
def start (tooMany failed : String) (blocks : Call → State → Status × State) (c : Call)
    (s : State) : State :=
  let s := s.check cfg tooMany c
  if c.cardTransfer then
    let (status, s) := blocks c s
    { s.panicIf (status != .ok) failed with
      pending := some c.flag
      completed := Function.update s.completed c.flag false }
  else s

/-- `read_blocks`. -/
def readBlocks : Call → State → State :=
  start cfg "Too many blocks requested to read from SD" "SD Card read operation failed"
    (notHalReadBlocks cfg)

/-- `write_blocks`. -/
def writeBlocks : Call → State → State :=
  start cfg "Too many blocks requested to write in SD" "SD Card write operation failed"
    (notHalWriteBlocks cfg)

def callBlocks (c : Call) : State → State :=
  match c.direction with
  | .read => readBlocks cfg c
  | .write => writeBlocks cfg c

/-- The end of a call. -/
def register (f : Flag) (s : State) : State :=
  { s with
    operationFlag := some f
    flags := Function.update s.flags f false
    pending := none }

/-- `on_dma_read_complete` and `on_dma_write_complete` are the same. -/
def onDmaComplete (s : State) : State :=
  match s.operationFlag with
  | none => s
  | some p => { s with flags := Function.update s.flags p true, operationFlag := none }

def onDmaReadComplete : State → State := onDmaComplete

def onDmaWriteComplete : State → State := onDmaComplete

/-- The interrupt at the end of a transfer. -/
def completeTransfer (t : Transfer) (s : State) : State :=
  let s :=
    { s with
      ready := true
      transfer := none
      completed := Function.update s.completed t.flag true }
  match t.direction with
  | .read => s.onDmaReadComplete
  | .write => s.onDmaWriteComplete

end State

/-! ## Runs -/

inductive Event
  | call (c : Call)
  | register
  | nextBuffer
  | complete

def step (cfg : Config) (s : State) : Event → Option State
  | .call c => if s.pending.isNone then some (s.callBlocks cfg c) else none
  | .register => s.pending.map fun f => s.register f
  | .nextBuffer => s.transfer.bind fun t =>
      if cfg.blocks < t.left then some { s with transfer := some (t.next cfg) } else none
  | .complete => s.transfer.bind fun t =>
      if t.left ≤ cfg.blocks then some (s.completeTransfer t) else none

abbrev Step (cfg : Config) (s : State) (e : Event) (t : State) : Prop := step cfg s e = some t

/-- A flag is set once its transfer has completed, and `get_current_buffer` is not the
buffer that the IDMA is at. -/
structure Right (s : State) : Prop where
  flag : ∀ f, s.completed f = true → s.flags f = true
  buffer : ∀ t, s.transfer = some t → t.buffer ≠ s.currentBuffer

/-- The command of a call is issued, and fails. -/
def CommandFails (cfg : Config) (s : State) : Event → Prop
  | .call c => c.cardTransfer = true ∧ s.ready = true ∧ State.rejects cfg c = false ∧
      c.command = false
  | _ => False

/-- A call that the card is ready for finds no transfer of another flag in progress; if it
starts a transfer, that is no larger than a buffer; and no transfer completes before its
flag is registered. -/
def Meets (cfg : Config) (s : State) : Event → Prop
  | .call c => c.cardTransfer = true →
      (∀ t, s.transfer = some t → t.flag = c.flag) ∧
        (s.ready = true → State.rejects cfg c = false → c.command = true →
          c.numBlocks.toNat ≤ cfg.blocks)
  | .complete => s.pending = none
  | .register | .nextBuffer => True

/-- The selection of the buffer stays as it was. -/
def SameBuffer (s t : State) : Prop := t.currentBuffer = s.currentBuffer

/-! ## A call -/

variable {cfg : Config} {s t : State} {c : Call}

/-- The transfer that a call starts. -/
def started (c : Call) (s : State) : Transfer where
  direction := c.direction
  flag := c.flag
  buffer := s.currentBuffer
  left := c.numBlocks.toNat

/-- What a call leaves, but for what the command does. -/
def State.begun (c : Call) (panics : List String) (s : State) : State :=
  { s with panics, pending := some c.flag, completed := Function.update s.completed c.flag false }

/-- The four ways a call goes. -/
inductive Outcome (cfg : Config) (c : Call) (s t : State) : Prop
  | away (panics : List String) (hc : c.cardTransfer = false) (ht : t = { s with panics })
  | rejected (panics : List String) (hc : c.cardTransfer = true)
      (hr : s.ready = false ∨ State.rejects cfg c = true) (ht : t = s.begun c panics)
  | failed (panics : List String) (hc : c.cardTransfer = true)
      (hf : CommandFails cfg s (.call c))
      (ht : t = { s.begun c panics with currentBuffer := s.currentBuffer.other, ready := true })
  | issued (panics : List String) (hc : c.cardTransfer = true) (hready : s.ready = true)
      (hr : State.rejects cfg c = false) (hcommand : c.command = true)
      (ht : t = { s.begun c panics with
        currentBuffer := s.currentBuffer.other
        ready := false
        transfer := some (started c s) })

theorem panicIf_eq (p : Bool) (message : String) (s : State) :
    ∃ panics, s.panicIf p message = { s with panics } := by
  cases p with
  | true => exact ⟨_, rfl⟩
  | false => exact ⟨s.panics, rfl⟩

theorem check_eq (cfg : Config) (tooMany : String) (c : Call) (s : State) :
    ∃ panics, s.check cfg tooMany c = { s with panics } := by
  unfold State.check State.checkCdWp
  obtain ⟨p1, h1⟩ := panicIf_eq (cfg.hasCd && !c.isCardPresent) "SD Card not present" s
  obtain ⟨p2, h2⟩ := panicIf_eq (cfg.hasWp && c.isWriteProtected) "SD Card is write-protected"
    { s with panics := p1 }
  obtain ⟨p3, h3⟩ := panicIf_eq (!s.cardInitialized) "SD Card not initialized"
    { s with panics := p2 }
  obtain ⟨p4, h4⟩ := panicIf_eq (c.numBlocks.toNat > cfg.blocks) tooMany { s with panics := p3 }
  exact ⟨p4, by rw [h1, h2]; exact (congrArg _ h3).trans h4⟩

theorem outcome_start (tooMany failed : String) {blocks : Call → State → Status × State}
    (hblocks : blocks c = State.blocksDMAMultiBuffer cfg c) :
    Outcome cfg c s (s.start cfg tooMany failed blocks c) := by
  obtain ⟨p, hp⟩ := check_eq cfg tooMany c s
  unfold State.start
  rw [hp, hblocks]
  cases hc : c.cardTransfer with
  | false => exact .away p hc rfl
  | true =>
    simp only [if_true]
    unfold State.blocksDMAMultiBuffer
    by_cases hready : s.ready = true
    · rw [if_pos hready]
      by_cases hreject : State.rejects cfg c = true
      · rw [if_pos hreject]
        exact .rejected _ hc (.inr hreject) rfl
      · have hnot : State.rejects cfg c = false := by simpa using hreject
        rw [if_neg hreject]
        by_cases hcommand : c.command = true
        · simp only [if_pos hcommand]
          exact .issued _ hc hready hnot hcommand rfl
        · simp only [if_neg hcommand]
          exact .failed _ hc ⟨hc, hready, hnot, by simpa using hcommand⟩ rfl
    · rw [if_neg hready]
      exact .rejected _ hc (.inl (by simpa using hready)) rfl

theorem outcome (cfg : Config) (c : Call) (s : State) : Outcome cfg c s (s.callBlocks cfg c) := by
  unfold State.callBlocks
  cases h : c.direction with
  | read =>
    refine outcome_start _ _ ?_
    unfold State.notHalReadBlocks
    rw [← h]
  | write =>
    refine outcome_start _ _ ?_
    unfold State.notHalWriteBlocks
    rw [← h]

/-! ## What is kept -/

/-- In a run that meets the condition: what is registered is the flag of the transfer in
progress, which is at its first buffer, the one that is not current. -/
structure Valid (cfg : Config) (s : State) : Prop where
  flag : ∀ f, s.completed f = true → s.flags f = true
  ready : ∀ t, s.transfer = some t → s.ready = false
  buffer : ∀ t, s.transfer = some t → t.buffer = s.currentBuffer.other ∧ t.left ≤ cfg.blocks
  registered : ∀ t, s.transfer = some t → s.pending = none → s.operationFlag = some t.flag
  pending : ∀ f, s.pending = some f → s.completed f = false ∧ ∀ t, s.transfer = some t → t.flag = f

theorem Valid.right (h : Valid cfg s) : Right s := by
  refine ⟨h.flag, fun t ht hb => ?_⟩
  have hother := (h.buffer t ht).1
  rw [hb] at hother
  cases hc : s.currentBuffer <;> rw [hc] at hother <;> cases hother

theorem Valid.begun (panics : List String) (h : Valid cfg s)
    (hown : ∀ t, s.transfer = some t → t.flag = c.flag) : Valid cfg (s.begun c panics) := by
  refine ⟨fun f hf => ?_, h.ready, h.buffer, fun _ _ => nofun, fun f hf => ?_⟩
  · have hupdate : Function.update s.completed c.flag false f = true := hf
    by_cases hfc : f = c.flag
    · rw [hfc, Function.update_self] at hupdate
      cases hupdate
    · rw [Function.update_of_ne hfc] at hupdate
      exact h.flag f hupdate
  · cases hf
    exact ⟨Function.update_self .., hown⟩

/-- There is no transfer in progress when the card is ready. -/
theorem Valid.idle (h : Valid cfg s) (hready : s.ready = true) : s.transfer = none := by
  cases ht : s.transfer with
  | none => rfl
  | some t => rw [h.ready t ht] at hready; cases hready

theorem Valid.call (h : Valid cfg s) (hm : Meets cfg s (.call c)) :
    Valid cfg (s.callBlocks cfg c) := by
  cases outcome cfg c s with
  | away panics hc ht =>
    rw [ht]
    exact ⟨h.flag, h.ready, h.buffer, h.registered, h.pending⟩
  | rejected panics hc hr ht =>
    rw [ht]
    exact h.begun panics (hm hc).1
  | failed panics hc hf ht =>
    have hidle := h.idle hf.2.1
    have hbegun := h.begun panics (hm hc).1
    have hnone : ∀ t, s.transfer = some t → False := fun t h => nomatch h.symm.trans hidle
    rw [ht]
    exact ⟨hbegun.flag, fun t h => (hnone t h).elim, fun t h => (hnone t h).elim,
      fun t h => (hnone t h).elim, hbegun.pending⟩
  | issued panics hc hready hr hcommand ht =>
    have hbegun := h.begun panics (hm hc).1
    rw [ht]
    refine ⟨hbegun.flag, fun t _ => rfl, fun t ht => ?_, fun _ _ => nofun, fun f hf => ?_⟩
    · cases ht
      refine ⟨?_, (hm hc).2 hready hr hcommand⟩
      show s.currentBuffer = s.currentBuffer.other.other
      cases s.currentBuffer <;> rfl
    · cases hf
      exact ⟨Function.update_self .., fun t ht => by cases ht; rfl⟩

theorem Valid.register {f : Flag} (h : Valid cfg s) (hp : s.pending = some f) :
    Valid cfg (s.register f) := by
  obtain ⟨hused, hown⟩ := h.pending f hp
  refine ⟨fun g hg => ?_, h.ready, h.buffer, fun t ht _ => congrArg some (hown t ht).symm, nofun⟩
  have hne : g ≠ f := fun he => by
    have hc : s.completed g = true := hg
    rw [he, hused] at hc
    cases hc
  exact (Function.update_of_ne hne ..).trans (h.flag g hg)

theorem Valid.complete {t : Transfer} (h : Valid cfg s) (ht : s.transfer = some t)
    (hp : s.pending = none) : Valid cfg (s.completeTransfer t) := by
  have hregistered := h.registered t ht hp
  have hcomplete : s.completeTransfer t =
      { s with
        ready := true
        transfer := none
        completed := Function.update s.completed t.flag true
        flags := Function.update s.flags t.flag true
        operationFlag := none } := by
    unfold State.completeTransfer State.onDmaReadComplete State.onDmaWriteComplete
      State.onDmaComplete
    cases t.direction <;> simp only [hregistered]
  rw [hcomplete]
  refine ⟨fun f hf => ?_, nofun, nofun, nofun, fun f hf => absurd (hf.symm.trans hp) (by simp)⟩
  show Function.update s.flags t.flag true f = true
  by_cases hft : f = t.flag
  · rw [hft, Function.update_self]
  · rw [Function.update_of_ne hft]
    have hbefore : Function.update s.completed t.flag true f = true := hf
    rw [Function.update_of_ne hft] at hbefore
    exact h.flag f hbefore

/-- **One step** that meets the condition. -/
theorem Valid.step {e : Event} (h : Valid cfg s) (hm : Meets cfg s e) (hs : Step cfg s e t) :
    Valid cfg t := by
  cases e with
  | call c =>
    obtain ⟨-, he⟩ := Option.ite_none_right_eq_some.mp hs
    cases he
    exact h.call hm
  | register =>
    obtain ⟨f, hf, rfl⟩ := Option.map_eq_some_iff.mp hs
    exact h.register hf
  | nextBuffer =>
    obtain ⟨x, hx, he⟩ := Option.bind_eq_some_iff.mp hs
    obtain ⟨hlt, -⟩ := Option.ite_none_right_eq_some.mp he
    exact absurd (h.buffer x hx).2 (Nat.not_le_of_lt hlt)
  | complete =>
    obtain ⟨x, hx, he⟩ := Option.bind_eq_some_iff.mp hs
    obtain ⟨-, he⟩ := Option.ite_none_right_eq_some.mp he
    cases he
    exact h.complete hx hm

/-- The buffers are switched before the command, and not back. -/
theorem switched_of_fails {e : Event} (hf : CommandFails cfg s e) (hs : Step cfg s e t) :
    ¬ SameBuffer s t := by
  cases e with
  | call c =>
    obtain ⟨-, he⟩ := Option.ite_none_right_eq_some.mp hs
    cases he
    cases outcome cfg c s with
    | away panics hc ht => exact absurd (hc.symm.trans hf.1) (by simp)
    | rejected panics hc hr ht =>
      obtain ⟨-, hready, hnot, -⟩ := hf
      rcases hr with hr | hr
      · exact absurd (hr.symm.trans hready) (by simp)
      · exact absurd (hr.symm.trans hnot) (by simp)
    | issued panics hc hready hr hcommand ht => exact absurd (hcommand.symm.trans hf.2.2.2) (by simp)
    | failed panics hc _ ht =>
      rw [ht]
      show s.currentBuffer.other ≠ s.currentBuffer
      cases s.currentBuffer <;> nofun
  | register => exact hf.elim
  | nextBuffer => exact hf.elim
  | complete => exact hf.elim

/-! ## Every run -/

/-- A card that is set up and has not been used. -/
def init (flags : Flag → Bool) (currentBuffer : BufferSelect) : State := { flags, currentBuffer }

/-- **Transfers.** In a run whose steps meet the condition the flags and the buffers are
right. A step leaves the selection of the buffer to a command that fails only where none
fails. -/
theorem transfers_right {flags : Flag → Bool} {currentBuffer : BufferSelect} {ls : List Event}
    (r : Run (Step cfg) (Meets cfg) (init flags currentBuffer) ls s) :
    Right s ∧ ∀ e t, Step cfg s e t →
      ((CommandFails cfg s e → SameBuffer s t) ↔ ¬ CommandFails cfg s e) := by
  have hinit : Valid cfg (init flags currentBuffer) := ⟨nofun, nofun, nofun, nofun, nofun⟩
  have hvalid := r.invariant hinit fun _ _ _ h hm hs => h.step hm hs
  refine ⟨hvalid.right, fun e t hs => ⟨fun hsame hf => ?_, fun hf h => absurd h hf⟩⟩
  exact switched_of_fails hf hs (hsame hf)

def card : Config where
  bufferSize := 4096
  logBlockNbr := 100
  idmabsize := 8
  idmabase0 := 0x24000000
  idmabase1 := 0x24001000
  hasCd := false
  hasWp := false

/-- A read of eight blocks. -/
def read : Call := { direction := .read, startBlock := 0, numBlocks := 8, flag := 0 }

theorem transfers_right_read :
    ∃ s, Step card (init (fun _ => false) .buffer0) (.call read) s ∧ Right s ∧
      ∀ e t, Step card s e t →
        ((CommandFails card s e → SameBuffer s t) ↔ ¬ CommandFails card s e) := by
  have hmeets : Meets card (init (fun _ => false) .buffer0) (.call read) :=
    fun _ => ⟨nofun, fun _ _ _ => by decide⟩
  exact ⟨_, rfl, transfers_right (.snoc (.nil _) hmeets rfl)⟩

/-- The transfer completes before its flag is registered; and the command fails. -/
theorem completion_lost :
    (¬ ∀ ls s, Run (Step card) (fun _ _ => True) (init (fun _ => false) .buffer0) ls s → Right s) ∧
      ¬ ∀ s e t, Step card s e t → CommandFails card s e → SameBuffer s t := by
  constructor
  · intro h
    obtain ⟨s, hs, hlost⟩ : ∃ s,
        exec (step card) (init (fun _ => false) .buffer0) [.call read, .complete, .register] =
          some s ∧ s.completed 0 = true ∧ s.flags 0 = false := ⟨_, rfl, by decide, by decide⟩
    have hright := h _ s (run_of_exec (fun _ _ _ => trivial) hs)
    rw [hright.flag 0 hlost.1] at hlost
    cases hlost.2
  · intro h
    have hsame := h (init (fun _ => false) .buffer0) (.call { read with command := false }) _ rfl
      (by refine ⟨rfl, rfl, by decide, rfl⟩)
    cases hsame

end StLib.Sd.Transfers
