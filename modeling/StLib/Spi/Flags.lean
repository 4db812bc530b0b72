import StLib.Base.Runs

/-! # Completion flags of an SPI instance

`SPI2.hpp` and `SPI2.cpp`: the requests of `SPIWrapper` that use DMA, for a master and for a
slave, the callbacks of the HAL and `recover`. A request is two steps, since an interrupt
may come between them: the flag is registered and the size is checked, then the HAL is
called. `PANIC` reports and returns. -/
namespace StLib.Spi.Flags

open StLib.Base.Runs

/-- The address of a `bool` of a caller. -/
abbrev Flag := Nat

/-- `HAL_StatusTypeDef`. -/
inductive Status
  | ok
  | error
  | busy
  | timeout
deriving DecidableEq

def Status.code : Status → Nat
  | ok => 0
  | error => 1
  | busy => 2
  | timeout => 3

/-- What the HAL is asked for: `HAL_SPI_Transmit_DMA` and its siblings. -/
inductive Operation
  | transmit
  | receive
  | transmitReceive
deriving DecidableEq

/-- A call to the HAL, and the flag its request was passed. -/
structure Transfer where
  operation : Operation
  frames : Nat
  flag : Option Flag
deriving DecidableEq

structure Config where
  /-- The index in `spi_instances`. -/
  index : Nat
  dataBits : Nat

/-- `frame_size`. -/
def Config.frameSize (cfg : Config) : Nat :=
  if cfg.dataBits ≤ 8 then 1 else if cfg.dataBits ≤ 16 then 2 else 4

/-- The instance and the flags. `pending` is the request whose call to the HAL is next,
`inProgress` is the operation that the HAL has started. -/
structure State where
  operationFlag : Option Flag := none
  errorCount : BitVec 32 := 0
  wasAborted : Bool := false
  flags : Flag → Bool := fun _ => false
  panics : List String := []
  pending : Option Transfer := none
  inProgress : Option Transfer := none

namespace State

variable (cfg : Config)

def panic (message : String) (s : State) : State := { s with panics := s.panics ++ [message] }

def dataNotAligned (size : Nat) : String :=
  "SPI data size (" ++ toString size ++ ") not aligned to frame size (" ++
    toString cfg.frameSize ++ ")"

def transactionNotAligned (size : Nat) : String :=
  "SPI transaction size (" ++ toString size ++ ") not aligned to frame size (" ++
    toString cfg.frameSize ++ ")"

/-- A request up to its call to the HAL. -/
def request (operation : Operation) (message : Nat → String) (size : Nat) (flag : Option Flag)
    (s : State) : State :=
  let s := { s with operationFlag := flag }
  if size % cfg.frameSize ≠ 0 then s.panic (message size)
  else { s with pending := some { operation, frames := size / cfg.frameSize, flag } }

/-! ### A master -/

def sendDMA (size : Nat) : Option Flag → State → State :=
  request cfg .transmit (dataNotAligned cfg) size

def receiveDMA (size : Nat) : Option Flag → State → State :=
  request cfg .receive (dataNotAligned cfg) size

def transceiveDMA (txSize rxSize : Nat) : Option Flag → State → State :=
  request cfg .transmitReceive (transactionNotAligned cfg) (min txSize rxSize)

/-! ### A slave -/

def listen (size : Nat) : Option Flag → State → State :=
  request cfg .receive (dataNotAligned cfg) size

def arm (size : Nat) : Option Flag → State → State :=
  request cfg .transmit (dataNotAligned cfg) size

def transceive (txSize rxSize : Nat) : Option Flag → State → State :=
  request cfg .transmitReceive (transactionNotAligned cfg) (min txSize rxSize)

/-! ### The HAL -/

def checkErrorCode (status : Status) (s : State) : Bool × State :=
  match status with
  | .ok => (true, s)
  | .busy => (false, s)
  | status => (false, s.panic ("SPI transmit error: " ++ toString status.code))

/-- The rest of a request, from the call to the HAL. -/
def start (x : Transfer) (status : Status) (s : State) : Bool × State :=
  let s := { s with pending := none }
  checkErrorCode status (if status = .ok then { s with inProgress := some x } else s)

/-- `HAL_SPI_TxCpltCallback`. -/
def txCpltCallback (s : State) : State :=
  match s.operationFlag with
  | none => s
  | some f => { s with flags := Function.update s.flags f true, operationFlag := none }

/-- `HAL_SPI_RxCpltCallback`. -/
def rxCpltCallback : State → State := txCpltCallback

/-- `HAL_SPI_TxRxCpltCallback`. -/
def txRxCpltCallback : State → State := txCpltCallback

def callback : Operation → State → State
  | .transmit => txCpltCallback
  | .receive => rxCpltCallback
  | .transmitReceive => txRxCpltCallback

/-- `HAL_SPI_Abort` ends the operation in progress. -/
def recover (deInit init : Status) (s : State) : Bool × State :=
  let s :=
    { s with
      inProgress := none
      errorCount := s.errorCount + 1
      wasAborted := true
      operationFlag := none }
  (deInit = .ok && init = .ok, s)

/-- `HAL_SPI_ErrorCallback`. -/
def errorCallback (errorCode : Nat) (deInit init : Status) (s : State) : State :=
  let (recovered, s) := s.recover deInit init
  if recovered then s
  else s.panic ("SPI" ++ toString (cfg.index + 1) ++ " failed with error number " ++
    toString errorCode ++ " (recovery failed, error count: " ++ toString s.errorCount.toNat ++ ")")

def abortAndRecover (deInit init : Status) (s : State) : State := (s.recover deInit init).2

def clearAbortFlag (s : State) : State := { s with wasAborted := false }

end State

/-! ## Runs -/

inductive Request
  | sendDMA (size : Nat)
  | receiveDMA (size : Nat)
  | transceiveDMA (txSize rxSize : Nat)
  | listen (size : Nat)
  | arm (size : Nat)
  | transceive (txSize rxSize : Nat)

def Request.call (cfg : Config) : Request → Option Flag → State → State
  | sendDMA size => State.sendDMA cfg size
  | receiveDMA size => State.receiveDMA cfg size
  | transceiveDMA txSize rxSize => State.transceiveDMA cfg txSize rxSize
  | listen size => State.listen cfg size
  | arm size => State.arm cfg size
  | transceive txSize rxSize => State.transceive cfg txSize rxSize

/-- `clear` is a caller that resets a flag of its own. -/
inductive Event
  | request (r : Request) (flag : Option Flag)
  | start (status : Status)
  | complete
  | error (errorCode : Nat) (deInit init : Status)
  | abortAndRecover (deInit init : Status)
  | clearAbortFlag
  | clear (f : Flag)

/-- The HAL starts an operation only when none is in progress. -/
def step (cfg : Config) (s : State) : Event → Option State
  | .request r flag => if s.pending.isNone then some (r.call cfg flag s) else none
  | .start status => s.pending.bind fun x =>
      if status = .ok ∧ s.inProgress.isSome then none else some (s.start x status).2
  | .complete => s.inProgress.map fun x => { s with inProgress := none }.callback x.operation
  | .error errorCode deInit init => some (s.errorCallback cfg errorCode deInit init)
  | .abortAndRecover deInit init => some (s.abortAndRecover deInit init)
  | .clearAbortFlag => some s.clearAbortFlag
  | .clear f => some { s with flags := Function.update s.flags f false }

abbrev Step (cfg : Config) (s : State) (e : Event) (t : State) : Prop := step cfg s e = some t

/-! ## What is claimed of a step -/

/-- The flag of the operation in progress is the one registered. -/
def Registered (s : State) : Prop := ∀ x, s.inProgress = some x → s.operationFlag = x.flag

/-- The flags after a step: an operation that completes sets its own, and nothing else sets
any. -/
def flagsAfter (s : State) : Event → Flag → Bool
  | .complete => match s.inProgress.bind Transfer.flag with
    | none => s.flags
    | some f => Function.update s.flags f true
  | .clear f => Function.update s.flags f false
  | _ => s.flags

/-- A step sets the flags as it should, and whatever it is (a request that is rejected, too)
leaves the operation in progress its registration. -/
def Right (cfg : Config) (s : State) (e : Event) : Prop :=
  ∀ t, Step cfg s e t → t.flags = flagsAfter s e ∧ Registered t

/-- A request finds no operation of another flag in progress; and what it has registered is
still there when the HAL starts it. -/
def Meets (s : State) : Event → Prop
  | .request _ flag => ∀ x, s.inProgress = some x → flag = x.flag
  | .start status => status = .ok → ∀ x, s.pending = some x → s.operationFlag = x.flag
  | _ => True

/-! ## The operations -/

variable {cfg : Config} {s t : State}

variable (cfg) in
/-- What every request does to the instance. -/
theorem call_spec (r : Request) (flag : Option Flag) (s : State) :
    (r.call cfg flag s).operationFlag = flag ∧ (r.call cfg flag s).flags = s.flags ∧
      (r.call cfg flag s).inProgress = s.inProgress := by
  have hrequest : ∀ operation message size,
      (s.request cfg operation message size flag).operationFlag = flag ∧
        (s.request cfg operation message size flag).flags = s.flags ∧
          (s.request cfg operation message size flag).inProgress = s.inProgress := by
    intro operation message size
    unfold State.request
    split
    · exact ⟨rfl, rfl, rfl⟩
    · exact ⟨rfl, rfl, rfl⟩
  cases r with
  | sendDMA size => exact hrequest _ _ _
  | receiveDMA size => exact hrequest _ _ _
  | transceiveDMA txSize rxSize => exact hrequest _ _ _
  | listen size => exact hrequest _ _ _
  | arm size => exact hrequest _ _ _
  | transceive txSize rxSize => exact hrequest _ _ _

theorem start_spec (x : Transfer) (status : Status) (s : State) :
    (s.start x status).2.operationFlag = s.operationFlag ∧
      (s.start x status).2.flags = s.flags ∧
        (s.start x status).2.inProgress = if status = .ok then some x else s.inProgress := by
  cases status with
  | ok => exact ⟨rfl, rfl, rfl⟩
  | error => exact ⟨rfl, rfl, rfl⟩
  | busy => exact ⟨rfl, rfl, rfl⟩
  | timeout => exact ⟨rfl, rfl, rfl⟩

variable (cfg) in
theorem errorCallback_spec (errorCode : Nat) (deInit init : Status) (s : State) :
    (s.errorCallback cfg errorCode deInit init).flags = s.flags ∧
      (s.errorCallback cfg errorCode deInit init).inProgress = none := by
  unfold State.errorCallback State.recover
  dsimp only
  split
  · exact ⟨rfl, rfl⟩
  · exact ⟨rfl, rfl⟩

/-- The three callbacks are one. -/
theorem callback_eq (operation : Operation) (s : State) :
    s.callback operation = s.txCpltCallback := by
  cases operation <;> rfl

theorem txCpltCallback_spec (s : State) :
    (s.txCpltCallback.flags = match s.operationFlag with
      | none => s.flags
      | some f => Function.update s.flags f true) ∧
      s.txCpltCallback.inProgress = s.inProgress := by
  unfold State.txCpltCallback
  cases s.operationFlag with
  | none => exact ⟨rfl, rfl⟩
  | some f => exact ⟨rfl, rfl⟩

theorem registered_of_idle (h : s.inProgress = none) : Registered s := by
  intro x hx
  rw [h] at hx
  cases hx

/-! ## One step -/

theorem right_request (r : Request) (flag : Option Flag) (hp : s.pending = none) :
    Right cfg s (.request r flag) ↔ Meets s (.request r flag) := by
  obtain ⟨hflag, hflags, hprogress⟩ := call_spec cfg r flag s
  have hstep : Step cfg s (.request r flag) (r.call cfg flag s) := if_pos (by rw [hp]; rfl)
  constructor
  · intro h x hx
    obtain ⟨-, hreg⟩ := h _ hstep
    exact hflag.symm.trans (hreg x (hprogress.trans hx))
  · intro h t ht
    cases hstep.symm.trans ht
    exact ⟨hflags, fun x hx => hflag.trans (h x (hprogress.symm.trans hx))⟩

theorem right_start {status : Status} {x : Transfer} (hreg : Registered s)
    (hp : s.pending = some x) (hs : Step cfg s (.start status) t) :
    Right cfg s (.start status) ↔ Meets s (.start status) := by
  obtain ⟨hflag, hflags, hprogress⟩ := start_spec x status s
  have ht : t = (s.start x status).2 := by
    obtain ⟨y, hy, he⟩ := Option.bind_eq_some_iff.mp hs
    cases hp.symm.trans hy
    split at he
    · cases he
    · exact (Option.some.inj he).symm
  constructor
  · intro h hok y hy
    cases hp.symm.trans hy
    rw [if_pos hok] at hprogress
    obtain ⟨-, hregistered⟩ := h t hs
    rw [ht] at hregistered
    exact hflag.symm.trans (hregistered x hprogress)
  · intro h u hu
    cases hs.symm.trans hu
    rw [ht]
    refine ⟨hflags, fun y hy => hflag.trans ?_⟩
    rw [hprogress] at hy
    by_cases hok : status = .ok
    · rw [if_pos hok] at hy
      cases hy
      exact h hok x hp
    · rw [if_neg hok] at hy
      exact hreg y hy

theorem right_complete (hreg : Registered s) : Right cfg s .complete := by
  intro t ht
  obtain ⟨x, hx, rfl⟩ := Option.map_eq_some_iff.mp ht
  rw [callback_eq]
  obtain ⟨hflags, hprogress⟩ := txCpltCallback_spec { s with inProgress := none }
  refine ⟨?_, registered_of_idle hprogress⟩
  rw [hflags]
  unfold flagsAfter
  rw [hx]
  show (match s.operationFlag with
    | none => s.flags
    | some f => Function.update s.flags f true) = _
  rw [hreg x hx]
  rfl

/-- **One step.** -/
theorem right_iff_meets {e : Event} (hreg : Registered s) (hs : Step cfg s e t) :
    Right cfg s e ↔ Meets s e := by
  cases e with
  | request r flag =>
    obtain ⟨hp, -⟩ := Option.ite_none_right_eq_some.mp hs
    exact right_request r flag (Option.isNone_iff_eq_none.mp hp)
  | start status =>
    obtain ⟨x, hx, -⟩ := Option.bind_eq_some_iff.mp hs
    exact right_start hreg hx hs
  | complete => exact iff_of_true (right_complete hreg) trivial
  | error errorCode deInit init =>
    obtain ⟨hflags, hprogress⟩ := errorCallback_spec cfg errorCode deInit init s
    refine iff_of_true (fun t ht => ?_) trivial
    cases ht
    exact ⟨hflags, registered_of_idle hprogress⟩
  | abortAndRecover deInit init =>
    refine iff_of_true (fun t ht => ?_) trivial
    cases ht
    exact ⟨rfl, registered_of_idle rfl⟩
  | clearAbortFlag =>
    refine iff_of_true (fun t ht => ?_) trivial
    cases ht
    exact ⟨rfl, hreg⟩
  | clear f =>
    refine iff_of_true (fun t ht => ?_) trivial
    cases ht
    exact ⟨rfl, hreg⟩

/-! ## Every run -/

def init (flags : Flag → Bool) : State := { flags }

/-- **Completion flags.** All the steps of a run are right exactly when they all meet the
condition. -/
theorem flags_right_iff (cfg : Config) (flags : Flag → Bool) (ls : List Event) (s : State) :
    Run (Step cfg) (Right cfg) (init flags) ls s ↔ Run (Step cfg) Meets (init flags) ls s := by
  refine Run.congr (registered_of_idle rfl) ?_ ?_
  · intro s e t _ hright hs
    exact (hright t hs).2
  · intro s e t hreg hs
    exact right_iff_meets hreg hs

def spi1 : Config where
  index := 0
  dataBits := 8

/-- A transmission completes after the HAL has been too busy for a reception. -/
theorem flag_misdirected :
    ¬ ∀ ls s e t, Run (Step spi1) (fun _ _ => True) (init fun _ => false) ls s →
      Step spi1 s e t → t.flags = flagsAfter s e := by
  intro h
  let ls : List Event :=
    [.request (.sendDMA 4) (some 0), .start .ok, .request (.receiveDMA 4) (some 1), .start .busy]
  obtain ⟨s, hs, t, ht, hflag⟩ : ∃ s, exec (step spi1) (init fun _ => false) ls = some s ∧
      ∃ t, Step spi1 s .complete t ∧ t.flags 1 = true ∧ flagsAfter s .complete 1 = false :=
    ⟨_, rfl, _, rfl, rfl, rfl⟩
  have hright := h ls s .complete t (run_of_exec (fun _ _ _ => trivial) hs) ht
  rw [hright, hflag.2] at hflag
  cases hflag.1

end StLib.Spi.Flags
