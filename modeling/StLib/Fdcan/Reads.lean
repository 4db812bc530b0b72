import StLib.Base.Runs

/-! # Frames read from a CAN controller

`FDCAN.hpp` and `FDCAN.cpp`: `FDCAN::read` and what it is called with. The controllers fill
their FIFO 0, which `HAL_FDCAN_GetRxMessage` empties; `PANIC` reports and returns. -/
namespace StLib.Fdcan.Reads

open StLib.Base.Runs

abbrev Byte := BitVec 8

inductive Peripheral
  | peripheral1
  | peripheral2
  | peripheral3
deriving DecidableEq

/-- `FDCAN_RxHeaderTypeDef`, the fields that are read. `DataLength` is a code of
`FDCAN::DLC`. -/
structure RxHeader where
  identifier : BitVec 32
  dataLength : BitVec 32
deriving DecidableEq

structure Frame extends RxHeader where
  data : List Byte
  fits : data.length ≤ 64

structure Packet where
  rxData : Vector Byte 64
  identifier : BitVec 32
  dataLength : BitVec 32

/-- `FDCAN::ID`. -/
def faultId : BitVec 32 := 1

/-- What is passed to `PANIC`. -/
inductive Report
  | readNotRegistered (id : BitVec 8)
  | testNotRegistered (id : BitVec 8)
  | faultPropagated
deriving DecidableEq

def Report.text : Report → String
  | readNotRegistered id => "There is no FDCAN registered with id: " ++ toString id.toNat ++ "."
  | testNotRegistered id => "FDCAN with id " ++ toString id.toNat ++ " not registered"
  | faultPropagated => "FAULT PROPAGATED via CAN"

/-- The address of a packet of a caller. -/
abbrev Address := Nat

structure State where
  fifos : Peripheral → List Frame
  packets : Address → Packet
  panics : List Report := []

/-- `HAL_FDCAN_GetRxMessage`, from the frames of the FIFO and what the caller's buffer
holds: the header, the buffer and the frames that are left. -/
abbrev GetRxMessage := List Frame → Vector Byte 64 → RxHeader × Vector Byte 64 × List Frame

/-- The oldest frame is taken: its header is copied, and its data to the start of the
buffer. -/
def TakesOldest (get : GetRxMessage) : Prop :=
  ∀ f rest buffer, (get (f :: rest) buffer).1 = f.toRxHeader ∧
    (get (f :: rest) buffer).2.1.toList.take f.data.length = f.data ∧
      (get (f :: rest) buffer).2.2 = rest

/-- `registered_fdcan`. -/
abbrev Registry := BitVec 8 → Option Peripheral

namespace State

def panic (r : Report) (s : State) : State := { s with panics := s.panics ++ [r] }

variable (registered : Registry) (get : GetRxMessage)

/-- `FDCAN::received_test`: the fill level of the FIFO is read. -/
def receivedTest (id : BitVec 8) (s : State) : Bool × State :=
  match registered id with
  | none => (false, s.panic (.testNotRegistered id))
  | some peripheral => (!((s.fifos peripheral).length == 0), s)

/-- `FDCAN::read`. -/
def read (id : BitVec 8) (data : Address) (s : State) : Bool × State :=
  match registered id with
  | none => (false, s.panic (.readNotRegistered id))
  | some peripheral =>
    let (received, s) := s.receivedTest registered id
    if !received then (false, s)
    else
      let packet := s.packets data
      let (header, rxData, frames) := get (s.fifos peripheral) packet.rxData
      let s := { s with fifos := Function.update s.fifos peripheral frames }
      -- the packet still has the identifier of whatever it held before
      let s := if packet.identifier = faultId then s.panic .faultPropagated else s
      let packet : Packet :=
        { rxData, identifier := header.identifier, dataLength := header.dataLength }
      (true, { s with packets := Function.update s.packets data packet })

end State

/-! ## Runs -/

/-- `RxFifo0ElmtsNbr`. -/
def fifoSize : Nat := 16

/-- `receive` is a frame that reaches a controller, which loses it if the FIFO is full;
`assign` is a caller that writes a packet of its own. -/
inductive Event
  | receive (peripheral : Peripheral) (f : Frame)
  | assign (data : Address) (packet : Packet)
  | read (id : BitVec 8) (data : Address)

variable (registered : Registry) (get : GetRxMessage)

def step (s : State) : Event → State
  | .receive peripheral f =>
    if (s.fifos peripheral).length < fifoSize then
      { s with fifos := Function.update s.fifos peripheral (s.fifos peripheral ++ [f]) }
    else s
  | .assign data packet => { s with packets := Function.update s.packets data packet }
  | .read id data => (s.read registered get id data).2

abbrev Step (s : State) (e : Event) (t : State) : Prop := t = step registered get s e

/-! ## What is claimed of a read -/

/-- The frame that a read takes. -/
def taken (s : State) (id : BitVec 8) : Option Frame :=
  (registered id).bind fun peripheral => (s.fifos peripheral).head?

/-- The packet has the frame's identifier, length and data. -/
structure Reports (packet : Packet) (f : Frame) : Prop where
  identifier : packet.identifier = f.identifier
  dataLength : packet.dataLength = f.dataLength
  data : packet.rxData.toList.take f.data.length = f.data

/-- A step reports that a fault was propagated. -/
def FaultRaised (s t : State) : Prop := t.panics = s.panics ++ [.faultPropagated]

/-- A read raises the fault when it takes a frame with the identifier of faults, and only
then, and its packet has that frame. -/
def Right (s : State) : Event → Prop
  | .read id data => ∀ t, Step registered get s (.read id data) t →
      (FaultRaised s t ↔ ∃ f, taken registered s id = some f ∧ f.identifier = faultId) ∧
        ∀ f, taken registered s id = some f → Reports (t.packets data) f
  | _ => True

/-- A read that takes a frame finds in its packet the identifier of faults when the frame
has it, and only then. -/
def Meets (s : State) : Event → Prop
  | .read id data => ∀ f, taken registered s id = some f →
      ((s.packets data).identifier = faultId ↔ f.identifier = faultId)
  | _ => True

/-! ## One read -/

variable {registered get} {s : State} {id : BitVec 8} {data : Address}

theorem receivedTest_registered {peripheral : Peripheral} (h : registered id = some peripheral) :
    s.receivedTest registered id = (!((s.fifos peripheral).length == 0), s) := by
  unfold State.receivedTest
  rw [h]

theorem read_not_registered (h : registered id = none) :
    s.read registered get id data = (false, s.panic (.readNotRegistered id)) := by
  unfold State.read
  rw [h]

theorem read_empty {peripheral : Peripheral} (h : registered id = some peripheral)
    (he : s.fifos peripheral = []) : s.read registered get id data = (false, s) := by
  unfold State.read
  rw [receivedTest_registered h, h, he]
  rfl

/-- A read that takes a frame decides on the identifier that the packet had. -/
theorem read_frame (data : Address) {peripheral : Peripheral} {f : Frame} {rest : List Frame}
    (hget : TakesOldest get) (h : registered id = some peripheral)
    (hf : s.fifos peripheral = f :: rest) :
    ∃ packet t, s.read registered get id data = (true, t) ∧ Reports packet f ∧
      t.packets = Function.update s.packets data packet ∧
        t.fifos = Function.update s.fifos peripheral rest ∧
          t.panics = s.panics ++
            if (s.packets data).identifier = faultId then [.faultPropagated] else [] := by
  obtain ⟨hheader, hdata, hrest⟩ := hget f rest (s.packets data).rxData
  rcases hg : get (f :: rest) (s.packets data).rxData with ⟨header, rxData, frames⟩
  rw [hg] at hheader hdata hrest
  subst hheader hrest
  unfold State.read
  rw [receivedTest_registered h, h]
  dsimp only
  rw [hf, hg]
  refine ⟨⟨rxData, f.identifier, f.dataLength⟩, _, rfl, ⟨rfl, rfl, hdata⟩, ?_⟩
  by_cases hi : (s.packets data).identifier = faultId
  · rw [if_pos hi, if_pos hi]
    exact ⟨rfl, rfl, rfl⟩
  · rw [if_neg hi, if_neg hi, List.append_nil]
    exact ⟨rfl, rfl, rfl⟩

theorem taken_eq_some {f : Frame} :
    taken registered s id = some f ↔
      ∃ peripheral rest, registered id = some peripheral ∧ s.fifos peripheral = f :: rest := by
  unfold taken
  rw [Option.bind_eq_some_iff]
  constructor
  · rintro ⟨peripheral, h, hf⟩
    obtain ⟨rest, hrest⟩ := List.head?_eq_some_iff.mp hf
    exact ⟨peripheral, rest, h, hrest⟩
  · rintro ⟨peripheral, rest, h, hf⟩
    exact ⟨peripheral, h, List.head?_eq_some_iff.mpr ⟨rest, hf⟩⟩

/-- A read that takes no frame raises no fault. -/
theorem read_none (h : taken registered s id = none) :
    ¬ FaultRaised s (s.read registered get id data).2 := by
  intro hraised
  unfold FaultRaised at hraised
  cases hr : registered id with
  | none =>
    rw [read_not_registered hr] at hraised
    cases List.append_cancel_left hraised
  | some peripheral =>
    have he : s.fifos peripheral = [] := by
      unfold taken at h
      rw [hr, Option.bind_some] at h
      exact List.head?_eq_none_iff.mp h
    rw [read_empty hr he] at hraised
    simp at hraised

/-- **One read.** -/
theorem right_read (hget : TakesOldest get) :
    Right registered get s (.read id data) ↔ Meets registered s (.read id data) := by
  cases ht : taken registered s id with
  | none =>
    refine iff_of_true ?_ ?_
    · rintro t rfl
      refine ⟨iff_of_false (read_none ht) ?_, ?_⟩
      · rintro ⟨f, hf, -⟩
        cases ht.symm.trans hf
      · intro f hf
        cases ht.symm.trans hf
    · intro f hf
      cases ht.symm.trans hf
  | some f =>
    obtain ⟨peripheral, rest, hr, hf⟩ := taken_eq_some.mp ht
    obtain ⟨packet, t, hread, hreports, hpackets, -, hpanics⟩ := read_frame data hget hr hf
    have hraised : FaultRaised s t ↔ (s.packets data).identifier = faultId := by
      unfold FaultRaised
      rw [hpanics, List.append_cancel_left_eq]
      simp
    have htaken : (∃ g, taken registered s id = some g ∧ g.identifier = faultId) ↔
        f.identifier = faultId := by
      rw [ht]
      simp
    have hstep : step registered get s (.read id data) = t := congrArg Prod.snd hread
    constructor
    · intro hright g hg
      cases ht.symm.trans hg
      obtain ⟨hfault, -⟩ := hright t hstep.symm
      exact hraised.symm.trans (hfault.trans htaken)
    · intro hmeets u hu
      obtain rfl : u = t := hu.trans hstep
      refine ⟨hraised.trans ((hmeets f ht).trans htaken.symm), fun g hg => ?_⟩
      cases ht.symm.trans hg
      rw [hpackets, Function.update_self]
      exact hreports

theorem right_iff_meets (hget : TakesOldest get) (e : Event) :
    Right registered get s e ↔ Meets registered s e := by
  cases e with
  | receive peripheral f => exact Iff.rfl
  | assign data packet => exact Iff.rfl
  | read id data => exact right_read hget

/-! ## Every run -/

def init (packets : Address → Packet) : State := { fifos := fun _ => [], packets }

variable (registered get) in
/-- **Faults over CAN.** All the reads of a run are right exactly when they all meet the
condition. -/
theorem reads_right_iff (hget : TakesOldest get) (packets : Address → Packet) (ls : List Event)
    (s : State) :
    Run (Step registered get) (Right registered get) (init packets) ls s ↔
      Run (Step registered get) (Meets registered) (init packets) ls s :=
  Run.congr (I := fun _ => True) trivial (fun _ _ _ _ _ _ => trivial)
    fun _ e _ _ _ => right_iff_meets hget e

/-- The copy as the HAL makes it. -/
def getRxMessage : GetRxMessage
  | [], buffer => (⟨0, 0⟩, buffer, [])
  | f :: rest, buffer =>
    (f.toRxHeader, Vector.ofFn fun i => f.data.getD i buffer[i], rest)

theorem takesOldest_getRxMessage : TakesOldest getRxMessage := by
  intro f rest buffer
  refine ⟨rfl, List.ext_getElem ?_ ?_, rfl⟩
  · simpa [getRxMessage] using f.fits
  · intro i hi hf
    simp [getRxMessage, hf]

def oneController : Registry := fun id => if id = 0 then some .peripheral1 else none

def blank : Packet where
  rxData := Vector.replicate 64 0
  identifier := 0
  dataLength := 0

def faultFrame : Frame where
  identifier := 1
  dataLength := 1
  data := [7]
  fits := by decide

def faultReceived : State :=
  step oneController getRxMessage (init fun _ => blank) (.receive .peripheral1 faultFrame)

def faultRead : State := step oneController getRxMessage faultReceived (.read 0 0)

theorem reads_right_iff_fault :
    Run (Step oneController getRxMessage) (Right oneController getRxMessage) (init fun _ => blank)
        [.receive .peripheral1 faultFrame, .read 0 0] faultRead ↔
      Run (Step oneController getRxMessage) (Meets oneController) (init fun _ => blank)
        [.receive .peripheral1 faultFrame, .read 0 0] faultRead :=
  reads_right_iff oneController getRxMessage takesOldest_getRxMessage (fun _ => blank) _ faultRead

/-- The first frame that a packet receives is of a fault. -/
theorem fault_missed :
    ¬ ∀ ls s id data t, Run (Step oneController getRxMessage) (fun _ _ => True)
        (init fun _ => blank) ls s →
      Step oneController getRxMessage s (.read id data) t →
        (FaultRaised s t ↔ ∃ f, taken oneController s id = some f ∧ f.identifier = faultId) := by
  intro h
  have hrun : Run (Step oneController getRxMessage) (fun _ _ => True) (init fun _ => blank)
      [.receive .peripheral1 faultFrame] faultReceived :=
    .single trivial rfl
  have hraised := (h _ _ 0 0 _ hrun rfl).mpr ⟨faultFrame, rfl, rfl⟩
  cases hraised

end StLib.Fdcan.Reads
