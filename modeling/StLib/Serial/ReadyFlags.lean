import StLib.Base.Runs

/-! # Receive-ready flags of I2C and UART

`I2C.cpp` and `UART.cpp`: the calls that start a reception by DMA, the callbacks of the HAL
and `has_next_packet`. A call is two steps, since an interrupt may come between them: up to
the call to the HAL, and the reset of the flag. `PANIC` reports and returns; the bytes of the
packets are left out. -/
namespace StLib.Serial.ReadyFlags

open StLib.Base.Runs

inductive Service
  | i2c
  | uart
deriving DecidableEq

/-- An instance of a service. -/
abbrev Peripheral := Service × Nat

inductive Kind
  | masterReceive
  | memoryRead
  | uartReceive
deriving DecidableEq

def Kind.service : Kind → Service
  | masterReceive => .i2c
  | memoryRead => .i2c
  | uartReceive => .uart

/-- The last reception that the HAL has started on a peripheral. -/
inductive Reception
  | never
  | inProgress (k : Kind)
  | completed
deriving DecidableEq

/-- `HAL_I2C_StateTypeDef`, and the `RxState` of a UART. -/
inductive HalState
  | ready
  | busyTx
  | busyRx
deriving DecidableEq

def HalState.code : HalState → BitVec 8
  | ready => 0x20
  | busyTx => 0x21
  | busyRx => 0x22

/-- `receiveReady` is the flag. -/
structure Instance where
  receiveReady : Bool := false
  state : HalState := .ready
  last : Reception := .never

/-- `active_i2c` and `registered_uart`. -/
structure Config where
  registry : Service → List (BitVec 8 × Nat)

/-- `calling` is the peripheral of the receive call whose reset of the flag is next. -/
structure State where
  instances : Peripheral → Instance := fun _ => {}
  calling : Option Peripheral := none
  panics : List String := []

namespace State

variable (cfg : Config)

def panic (message : String) (s : State) : State := { s with panics := s.panics ++ [message] }

def set (p : Peripheral) (x : Instance) (s : State) : State :=
  { s with instances := Function.update s.instances p x }

/-- The HAL starts a reception on a peripheral that is ready, if it `accepts` the rest of the
request. -/
def starts (accepts : Bool) (p : Peripheral) (s : State) : Bool :=
  (s.instances p).state = .ready && accepts

def started (k : Kind) (p : Peripheral) (s : State) : State :=
  { s.set p { s.instances p with state := .busyRx, last := .inProgress k } with calling := some p }

/-- `I2C::receive_next_packet`, up to the call to the HAL. -/
def receiveNextPacket (id : BitVec 8) (accepts : Bool) (s : State) : State :=
  match (cfg.registry .i2c).lookup id with
  | none => s.panic "I2C id not found on receive packet \n\r"
  | some n =>
    if (s.instances (.i2c, n)).state = .busyRx then s.panic "I2C Receive buffer busy!\n\r"
    else if s.starts accepts (.i2c, n) then s.started .masterReceive (.i2c, n)
    else s.panic "I2C Error during memory write DMA!\n\r"

/-- `I2C::read_from`, up to the call to the HAL. -/
def readFrom (id : BitVec 8) (accepts : Bool) (s : State) : State :=
  match (cfg.registry .i2c).lookup id with
  | none => s.panic "I2C id not found on read \n\r"
  | some n =>
    if (s.instances (.i2c, n)).state = .busyTx then s.panic "I2C Transmit buffer busy!\n\r"
    else if s.starts accepts (.i2c, n) then s.started .memoryRead (.i2c, n)
    else s.panic "I2C Error during memory read DMA!\n\r"

/-- `RXBUSYMASK`. -/
def rxBusyMask : BitVec 8 := 0b10

/-- `UART::receive`, up to the call to the HAL. -/
def receive (id : BitVec 8) (accepts : Bool) (s : State) : State :=
  match (cfg.registry .uart).lookup id with
  | none => s
  | some n =>
    if ((s.instances (.uart, n)).state.code &&& rxBusyMask) >>> 1 = 1 then s
    else if s.starts accepts (.uart, n) then s.started .uartReceive (.uart, n)
    else s

def call : Kind → BitVec 8 → Bool → State → State
  | .masterReceive => receiveNextPacket cfg
  | .memoryRead => readFrom cfg
  | .uartReceive => receive cfg

/-- The rest of each call. -/
def finish (p : Peripheral) (s : State) : State :=
  { s.set p { s.instances p with receiveReady := false } with calling := none }

/-- The instance that has the handle of a callback, if any is registered. -/
def found (p : Peripheral) (s : State) : State :=
  match (cfg.registry p.1).find? fun e => e.2 == p.2 with
  | none => s
  | some e => s.set (p.1, e.2) { s.instances (p.1, e.2) with receiveReady := true }

/-- `HAL_I2C_MasterRxCpltCallback`. -/
def masterRxCpltCallback : Nat → State → State := fun n => found cfg (.i2c, n)

/-- `HAL_UART_RxCpltCallback`. -/
def uartRxCpltCallback : Nat → State → State := fun n => found cfg (.uart, n)

/-- The callback of each kind of reception: the one of a memory read is the HAL's own, which
does nothing. -/
def callback : Kind → Nat → State → State
  | .masterReceive => masterRxCpltCallback cfg
  | .memoryRead => fun _ s => s
  | .uartReceive => uartRxCpltCallback cfg

/-- `I2C::has_next_packet`. -/
def i2cHasNextPacket (id : BitVec 8) (s : State) : Bool × State :=
  match (cfg.registry .i2c).lookup id with
  | none => (false, s.panic "I2C id not found on next packet check \n\r")
  | some n => ((s.instances (.i2c, n)).receiveReady, s)

/-- `UART::has_next_packet`. -/
def uartHasNextPacket (id : BitVec 8) (s : State) : Bool × State :=
  match (cfg.registry .uart).lookup id with
  | none => (false, s)
  | some n => ((s.instances (.uart, n)).receiveReady, s)

def hasNextPacket : Service → BitVec 8 → State → Bool × State
  | .i2c => i2cHasNextPacket cfg
  | .uart => uartHasNextPacket cfg

end State

/-! ## Runs -/

/-- `transmit` and `transmitted` are a transmission of an I2C, which keeps it busy. -/
inductive Event
  | call (k : Kind) (id : BitVec 8) (accepts : Bool)
  | finish
  | complete (p : Peripheral)
  | transmit (n : Nat)
  | transmitted (n : Nat)

def step (cfg : Config) (s : State) : Event → Option State
  | .call k id accepts => if s.calling.isNone then some (s.call cfg k id accepts) else none
  | .finish => s.calling.map fun p => s.finish p
  | .complete p =>
    match (s.instances p).last with
    | .inProgress k =>
      some ((s.set p { s.instances p with state := .ready, last := .completed }).callback cfg k p.2)
    | _ => none
  | .transmit n =>
    if (s.instances (.i2c, n)).state = .ready then
      some (s.set (.i2c, n) { s.instances (.i2c, n) with state := .busyTx })
    else none
  | .transmitted n =>
    if (s.instances (.i2c, n)).state = .busyTx then
      some (s.set (.i2c, n) { s.instances (.i2c, n) with state := .ready })
    else none

abbrev Step (cfg : Config) (s : State) (e : Event) (t : State) : Prop := step cfg s e = some t

/-! ## What is claimed -/

variable (cfg : Config)

/-- Outside of its receive calls, `has_next_packet` of a peripheral is whether its last
reception has completed. -/
def Told (s : State) : Prop :=
  ∀ v id n, (cfg.registry v).lookup id = some n → s.calling ≠ some (v, n) →
    ((s.hasNextPacket cfg v id).1 = true ↔ (s.instances (v, n)).last = .completed)

def Right (s : State) (e : Event) : Prop := ∀ t, Step cfg s e t → Told cfg t

/-- A receive call resets the flag before its reception has completed, and the reception
that completes outside of a call is not a memory read. -/
def Meets (s : State) : Event → Prop
  | .finish => ∀ p, s.calling = some p → (s.instances p).last ≠ .completed
  | .complete p => s.calling ≠ some p → (s.instances p).last ≠ .inProgress .memoryRead
  | _ => True

/-! ## The operations -/

def Registered (p : Peripheral) : Prop := ∃ id, (cfg.registry p.1).lookup id = some p.2

/-- The peripherals in use are registered, with receptions of their own service. -/
structure Consistent (s : State) : Prop where
  calling : ∀ p, s.calling = some p → Registered cfg p
  inProgress : ∀ p k, (s.instances p).last = .inProgress k → Registered cfg p ∧ p.1 = k.service

/-- The flag of every registered peripheral that no call is about to reset. -/
def Flagged (s : State) : Prop :=
  ∀ p, Registered cfg p → s.calling ≠ some p →
    ((s.instances p).receiveReady = true ↔ (s.instances p).last = .completed)

variable {cfg} {s t : State}

theorem hasNextPacket_eq {v : Service} {id : BitVec 8} {n : Nat}
    (h : (cfg.registry v).lookup id = some n) :
    (s.hasNextPacket cfg v id).1 = (s.instances (v, n)).receiveReady := by
  cases v with
  | i2c =>
    show (s.i2cHasNextPacket cfg id).1 = _
    unfold State.i2cHasNextPacket
    rw [h]
  | uart =>
    show (s.uartHasNextPacket cfg id).1 = _
    unfold State.uartHasNextPacket
    rw [h]

theorem told_iff_flagged : Told cfg s ↔ Flagged cfg s := by
  constructor
  · rintro h ⟨v, n⟩ ⟨id, hid⟩ hc
    rw [← hasNextPacket_eq hid]
    exact h v id n hid hc
  · intro h v id n hid hc
    rw [hasNextPacket_eq hid]
    exact h (v, n) ⟨id, hid⟩ hc

variable (cfg) in
/-- What a call leaves: a reception that has started, or the instances as they were. -/
def Outcome (k : Kind) (s t : State) : Prop :=
  (∃ p, Registered cfg p ∧ p.1 = k.service ∧ t = s.started k p) ∨
    (t.instances = s.instances ∧ t.calling = s.calling)

/-- A request for a registered peripheral, whatever it does where it starts none. -/
theorem request_outcome {k : Kind} {id : BitVec 8} {n : Nat} (hn : (cfg.registry k.service).lookup id = some n)
    {busy : Prop} [Decidable busy] {refused failed : State} (accepts : Bool)
    (hrefused : refused.instances = s.instances ∧ refused.calling = s.calling)
    (hfailed : failed.instances = s.instances ∧ failed.calling = s.calling) :
    Outcome cfg k s (if busy then refused
      else if s.starts accepts (k.service, n) then s.started k (k.service, n) else failed) := by
  split
  · exact .inr hrefused
  · split
    · exact .inl ⟨(k.service, n), ⟨id, hn⟩, rfl, rfl⟩
    · exact .inr hfailed

theorem receiveNextPacket_outcome (id : BitVec 8) (accepts : Bool) :
    Outcome cfg .masterReceive s (s.receiveNextPacket cfg id accepts) := by
  unfold State.receiveNextPacket
  split
  · exact .inr ⟨rfl, rfl⟩
  · next n hn => exact request_outcome hn accepts ⟨rfl, rfl⟩ ⟨rfl, rfl⟩

theorem readFrom_outcome (id : BitVec 8) (accepts : Bool) :
    Outcome cfg .memoryRead s (s.readFrom cfg id accepts) := by
  unfold State.readFrom
  split
  · exact .inr ⟨rfl, rfl⟩
  · next n hn => exact request_outcome hn accepts ⟨rfl, rfl⟩ ⟨rfl, rfl⟩

theorem receive_outcome (id : BitVec 8) (accepts : Bool) :
    Outcome cfg .uartReceive s (s.receive cfg id accepts) := by
  unfold State.receive
  split
  · exact .inr ⟨rfl, rfl⟩
  · next n hn => exact request_outcome hn accepts ⟨rfl, rfl⟩ ⟨rfl, rfl⟩

theorem call_outcome (k : Kind) (id : BitVec 8) (accepts : Bool) :
    Outcome cfg k s (s.call cfg k id accepts) := by
  cases k with
  | masterReceive => exact receiveNextPacket_outcome id accepts
  | memoryRead => exact readFrom_outcome id accepts
  | uartReceive => exact receive_outcome id accepts

/-- A callback finds the instance of a registered peripheral. -/
theorem found_eq {p : Peripheral} (hp : Registered cfg p) :
    s.found cfg p = s.set p { s.instances p with receiveReady := true } := by
  obtain ⟨id, hid⟩ := hp
  unfold State.found
  split
  · next hnone =>
    obtain ⟨l, r, hl, -⟩ := List.lookup_eq_some_iff.mp hid
    have hmem : (id, p.2) ∈ cfg.registry p.1 := by rw [hl]; simp
    exact absurd (beq_self_eq_true p.2) (List.find?_eq_none.mp hnone _ hmem)
  · next e he =>
    have hn := List.find?_some he
    rw [eq_of_beq hn]

/-- What a callback does when a reception of a registered peripheral has completed. -/
theorem callback_eq {p : Peripheral} {k : Kind} (hp : Registered cfg p) (hk : p.1 = k.service) :
    s.callback cfg k p.2 = if k = .memoryRead then s
      else s.set p { s.instances p with receiveReady := true } := by
  obtain ⟨v, n⟩ := p
  obtain rfl : v = k.service := hk
  cases k with
  | masterReceive => exact found_eq hp
  | memoryRead => rfl
  | uartReceive => exact found_eq hp

/-! ## One step -/

theorem right_iff_flagged {e : Event} (hs : Step cfg s e t) : Right cfg s e ↔ Flagged cfg t := by
  constructor
  · intro h
    exact told_iff_flagged.mp (h t hs)
  · intro h u hu
    cases hs.symm.trans hu
    exact told_iff_flagged.mpr h

@[simp] theorem set_instances (p : Peripheral) (x : Instance) (s : State) :
    (s.set p x).instances = Function.update s.instances p x := rfl

@[simp] theorem set_calling (p : Peripheral) (x : Instance) (s : State) :
    (s.set p x).calling = s.calling := rfl

/-- A change of one instance that leaves its flag and its reception. -/
theorem flagged_of_set {p : Peripheral} {x : Instance} (hf : Flagged cfg s)
    (hr : x.receiveReady = (s.instances p).receiveReady) (hl : x.last = (s.instances p).last) :
    Flagged cfg (s.set p x) := by
  intro q hq hc
  rw [set_instances]
  by_cases h : q = p
  · subst h
    rw [Function.update_self, hr, hl]
    exact hf q hq hc
  · rw [Function.update_of_ne h]
    exact hf q hq hc

theorem consistent_of_set {p : Peripheral} {x : Instance} (hs : Consistent cfg s)
    (hl : ∀ k, x.last = .inProgress k → (s.instances p).last = .inProgress k) :
    Consistent cfg (s.set p x) := by
  refine ⟨hs.calling, fun q k hq => ?_⟩
  rw [set_instances] at hq
  by_cases h : q = p
  · subst h
    rw [Function.update_self] at hq
    exact hs.inProgress q k (hl k hq)
  · rw [Function.update_of_ne h] at hq
    exact hs.inProgress q k hq

theorem flagged_call {k : Kind} (hf : Flagged cfg s) (hidle : s.calling = none)
    (h : Outcome cfg k s t) : Flagged cfg t := by
  rcases h with ⟨p, -, -, rfl⟩ | ⟨hi, hc⟩
  · intro q hq hne
    have hqp : q ≠ p := fun h => hne (congrArg some h.symm)
    show ((Function.update s.instances p _ q).receiveReady = true ↔ _)
    rw [State.started, set_instances, Function.update_of_ne hqp]
    exact hf q hq (by rw [hidle]; exact Option.some_ne_none q ∘ Eq.symm)
  · intro q hq hne
    rw [hi]
    exact hf q hq (by rwa [hc] at hne)

theorem consistent_call {k : Kind} (hs : Consistent cfg s) (h : Outcome cfg k s t) :
    Consistent cfg t := by
  rcases h with ⟨p, hp, hk, rfl⟩ | ⟨hi, hc⟩
  · refine ⟨fun q hq => Option.some.inj hq ▸ hp, fun q j hq => ?_⟩
    rw [State.started, set_instances] at hq
    by_cases h : q = p
    · subst h
      rw [Function.update_self] at hq
      exact ⟨hp, Reception.inProgress.inj hq ▸ hk⟩
    · rw [Function.update_of_ne h] at hq
      exact hs.inProgress q j hq
  · exact ⟨hc ▸ hs.calling, hi ▸ hs.inProgress⟩

/-- The flag of the other peripherals is as before. -/
theorem flagged_update_iff {p : Peripheral} {x : Instance} (hp : Registered cfg p)
    (hf : Flagged cfg s) (hi : t.instances = Function.update s.instances p x)
    (hc : ∀ q, q ≠ p → t.calling ≠ some q → s.calling ≠ some q) :
    Flagged cfg t ↔ (t.calling ≠ some p → (x.receiveReady = true ↔ x.last = .completed)) := by
  constructor
  · intro h hne
    have hflag := h p hp hne
    rwa [hi, Function.update_self] at hflag
  · intro h q hq hne
    rw [hi]
    by_cases hqp : q = p
    · subst hqp
      rw [Function.update_self]
      exact h hne
    · rw [Function.update_of_ne hqp]
      exact hf q hq (hc q hqp hne)

theorem flagged_finish {p : Peripheral} (hs : Consistent cfg s) (hf : Flagged cfg s)
    (hp : s.calling = some p) :
    Flagged cfg (s.finish p) ↔ (s.instances p).last ≠ .completed := by
  have hothers : ∀ q, q ≠ p → (s.finish p).calling ≠ some q → s.calling ≠ some q := by
    intro q hqp _ hq
    exact hqp (Option.some.inj (hq.symm.trans hp))
  rw [flagged_update_iff (hs.calling p hp) hf rfl hothers]
  constructor
  · intro h hlast
    exact Bool.false_ne_true ((h (Option.some_ne_none p ∘ Eq.symm)).mpr hlast)
  · intro h _
    exact iff_of_false Bool.false_ne_true h

/-- What a completion leaves of its instance. -/
theorem complete_instances {p : Peripheral} {k : Kind} (hp : Registered cfg p)
    (hk : p.1 = k.service) (x : Instance) :
    ((s.set p x).callback cfg k p.2).instances = Function.update s.instances p
        { x with receiveReady := if k = .memoryRead then x.receiveReady else true } ∧
      ((s.set p x).callback cfg k p.2).calling = s.calling := by
  rw [callback_eq hp hk]
  by_cases hm : k = .memoryRead
  · rw [if_pos hm, if_pos hm]
    exact ⟨rfl, rfl⟩
  · rw [if_neg hm, if_neg hm, set_instances, set_instances, Function.update_idem,
      Function.update_self]
    exact ⟨rfl, rfl⟩

theorem flagged_complete {p : Peripheral} {k : Kind} (hs : Consistent cfg s)
    (hf : Flagged cfg s) (hl : (s.instances p).last = .inProgress k)
    (ht : t = (s.set p { s.instances p with state := .ready, last := .completed }).callback
      cfg k p.2) :
    Consistent cfg t ∧ (Flagged cfg t ↔ (s.calling ≠ some p → k ≠ .memoryRead)) := by
  obtain ⟨hp, hk⟩ := hs.inProgress p k hl
  obtain ⟨hi, hc⟩ := complete_instances (s := s) hp hk
    { s.instances p with state := .ready, last := .completed }
  rw [← ht] at hi hc
  constructor
  · refine ⟨hc ▸ hs.calling, fun q j hq => ?_⟩
    rw [hi] at hq
    by_cases hqp : q = p
    · subst hqp
      rw [Function.update_self] at hq
      cases hq
    · rw [Function.update_of_ne hqp] at hq
      exact hs.inProgress q j hq
  · rw [flagged_update_iff hp hf hi (fun q _ hne => hc ▸ hne), hc]
    refine forall_congr' fun hne => ?_
    by_cases hm : k = .memoryRead
    · -- the flag is still down, since the reception was in progress
      have hdown : ¬ (s.instances p).receiveReady = true := by
        rw [hf p hp hne, hl]
        exact Reception.noConfusion
      simp [hm, hdown]
    · simp [hm]

theorem consistent_finish {p : Peripheral} (hs : Consistent cfg s) :
    Consistent cfg (s.finish p) := by
  have hset := consistent_of_set (x := { s.instances p with receiveReady := false }) hs
    (fun _ h => h)
  exact ⟨nofun, hset.inProgress⟩

/-- A step keeps the peripherals consistent, and keeps the flags right exactly when it meets
the condition. -/
theorem step_spec {e : Event} (hs : Consistent cfg s) (hf : Flagged cfg s)
    (h : Step cfg s e t) : Consistent cfg t ∧ (Flagged cfg t ↔ Meets s e) := by
  cases e with
  | call k id accepts =>
    obtain ⟨hidle, ht⟩ := Option.ite_none_right_eq_some.mp h
    cases ht
    have hcall : Outcome cfg k s (s.call cfg k id accepts) := call_outcome k id accepts
    exact ⟨consistent_call hs hcall,
      iff_of_true (flagged_call hf (Option.isNone_iff_eq_none.mp hidle) hcall) trivial⟩
  | finish =>
    obtain ⟨p, hp, rfl⟩ := Option.map_eq_some_iff.mp h
    refine ⟨consistent_finish hs, (flagged_finish hs hf hp).trans ?_⟩
    constructor
    · intro hl q hq
      exact Option.some.inj (hp.symm.trans hq) ▸ hl
    · intro hall
      exact hall p hp
  | complete p =>
    unfold Step step at h
    cases hl : (s.instances p).last with
    | never => simp [hl] at h
    | completed => simp [hl] at h
    | inProgress k =>
      simp only [hl, Option.some.injEq] at h
      obtain ⟨hcons, hflag⟩ := flagged_complete hs hf hl h.symm
      refine ⟨hcons, hflag.trans (forall_congr' fun _ => not_congr ?_)⟩
      rw [hl, Reception.inProgress.injEq]
  | transmit n =>
    obtain ⟨-, ht⟩ := Option.ite_none_right_eq_some.mp h
    cases ht
    exact ⟨consistent_of_set hs fun _ h => h, iff_of_true (flagged_of_set hf rfl rfl) trivial⟩
  | transmitted n =>
    obtain ⟨-, ht⟩ := Option.ite_none_right_eq_some.mp h
    cases ht
    exact ⟨consistent_of_set hs fun _ h => h, iff_of_true (flagged_of_set hf rfl rfl) trivial⟩

/-! ## Every run -/

theorem consistent_initial : Consistent cfg {} := ⟨nofun, nofun⟩

theorem flagged_initial : Flagged cfg {} := fun _ _ _ => iff_of_false nofun nofun

/-- **Receive-ready flags.** The flags tell the truth after every step of a run exactly when
all its steps meet the condition. -/
theorem told_iff (cfg : Config) (ls : List Event) (s : State) :
    Run (Step cfg) (Right cfg) {} ls s ↔ Run (Step cfg) Meets {} ls s := by
  refine Run.congr (I := fun s => Consistent cfg s ∧ Flagged cfg s)
    ⟨consistent_initial, flagged_initial⟩ ?_ ?_
  · intro s e t hs hright h
    exact ⟨(step_spec hs.1 hs.2 h).1, (right_iff_flagged h).mp hright⟩
  · intro s e t hs h
    exact (right_iff_flagged h).trans (step_spec hs.1 hs.2 h).2

/-- One I2C and one UART. -/
def board : Config where
  registry _ := [(0, 0)]

/-- A UART completes before its call has reset the flag. -/
theorem reception_lost :
    ¬ ∀ ls s, Run (Step board) (fun _ _ => True) {} ls s → Told board s := by
  intro h
  let ls : List Event := [.call .uartReceive 0 true, .complete (.uart, 0), .finish]
  obtain ⟨s, hs, hc, hflag, hlast⟩ : ∃ s, exec (step board) {} ls = some s ∧
      s.calling ≠ some (.uart, 0) ∧ (s.hasNextPacket board .uart 0).1 = false ∧
        (s.instances (.uart, 0)).last = .completed :=
    ⟨_, rfl, nofun, rfl, rfl⟩
  have hready := (h ls s (run_of_exec (fun _ _ _ => trivial) hs) .uart 0 0 rfl hc).mpr hlast
  rw [hflag] at hready
  cases hready

/-- So does a memory read, whenever it completes. -/
example : ∃ s, exec (step board) {}
      [.call .memoryRead 0 true, .finish, .complete (.i2c, 0)] = some s ∧
    (s.hasNextPacket board .i2c 0).1 = false :=
  ⟨_, rfl, rfl⟩

end StLib.Serial.ReadyFlags
