import StLib.Diagnostics.HubDelivery
import StLib.Diagnostics.TransportRoundTrip

/-! # Forwarding between boards

`OrderProtocolDiagnosticSink` and `DiagnosticTransportOrder::process` of
`DiagnosticSinks.cpp`, on boards connected with each other: what a sink of one board sends
is published again in the hub of the board at the other end. -/
namespace StLib.Diagnostics.Forwarding

open StLib.Base.Bytes
open StLib.Diagnostics.Hub (DiagnosticPriority)
open StLib.Diagnostics.TransportOrder (Severity Timestamp DiagnosticTransportOrder originCapacity
  diagnosticFaultOrderId diagnosticWarningOrderId diagnosticOkOrderId)

/-! ## Records -/

def runtimeMessageCapacity : Nat := 160

def functionCapacity : Nat := 64

def fileCapacity : Nat := 96

inductive Category
  | runtimePanic
  | runtimeFault
  | runtimeWarning
  | runtimeInfo
  | protectionEvent
deriving DecidableEq

structure RuntimeDiagnosticPayload where
  line : BitVec 32
  truncated : Bool
  message : CString runtimeMessageCapacity
  functionName : CString functionCapacity
  fileName : CString fileCapacity

/-- The payload of a protection event is only read by the formatter. -/
inductive DiagnosticPayload (κ : Type)
  | runtime (payload : RuntimeDiagnosticPayload)
  | protection (payload : κ)

/-- A `DiagnosticRecord` less its priority, which the hub keeps. -/
structure Content (κ : Type) where
  severity : Severity
  category : Category
  timestamp : Timestamp
  origin : CString originCapacity
  payload : DiagnosticPayload κ

def emptyString (capacity : Nat) : CString capacity where
  chars := []
  fits := Nat.zero_le _
  noNul := nul_notMem_nil

/-- `DiagnosticRecord{}`. -/
instance {κ : Type} : Inhabited (Content κ) where
  default := {
    severity := .info
    category := .runtimeInfo
    timestamp := {}
    origin := emptyString _
    payload := .runtime {
      line := 0#32
      truncated := false
      message := emptyString _
      functionName := emptyString _
      fileName := emptyString _ } }

/-- An array of characters. -/
def stored {capacity : Nat} (s : CString capacity) : Memory :=
  memory (s.chars ++ [0#8]) fun _ => 0#8

/-- A string literal. -/
def literal (s : String) : Memory :=
  memory (s.toList.map fun c => BitVec.ofNat 8 c.toNat) fun _ => 0#8

variable {κ : Type}

/-- `RecordFactory`, of a runtime record. -/
def runtimeRecord (severity : Severity) (category : Category) (origin : String)
    (message : Memory) (truncated : Bool) (line : Int) (functionName fileName : Memory)
    (now : Timestamp) : Content κ where
  severity
  category
  timestamp := now
  origin := copyCString originCapacity (literal origin)
  payload := .runtime {
    line := BitVec.ofInt 32 (max line 0)
    truncated := truncated || message (strnlen message runtimeMessageCapacity) != 0#8
    message := copyCString runtimeMessageCapacity message
    functionName := copyCString functionCapacity functionName
    fileName := copyCString fileCapacity fileName }

def runtimeFault : Memory → Bool → Int → Memory → Memory → Timestamp → Content κ :=
  runtimeRecord .fault .runtimeFault "runtime_fault"

def runtimeWarning : Memory → Bool → Int → Memory → Memory → Timestamp → Content κ :=
  runtimeRecord .warning .runtimeWarning "runtime_warning"

def runtimeInfo : Memory → Bool → Int → Memory → Memory → Timestamp → Content κ :=
  runtimeRecord .info .runtimeInfo "runtime_info"

/-- `DiagnosticTransportOrder::process`: the record that it publishes, with the default
priority. -/
def process (o : DiagnosticTransportOrder) (now : Timestamp) : Option (Content κ) :=
  if o.id = diagnosticFaultOrderId then
    some (runtimeFault (stored o.message) false 0 (stored o.origin) (literal "") now)
  else if o.id = diagnosticWarningOrderId then
    some (runtimeWarning (stored o.message) false 0 (stored o.origin) (literal "") now)
  else if o.id = diagnosticOkOrderId then
    some (runtimeInfo (stored o.message) false 0 (stored o.origin) (literal "") now)
  else none

/-- What `set_record` reads of a record. -/
def Content.header (record : Content κ) : TransportOrder.DiagnosticRecord where
  severity := record.severity
  timestamp := record.timestamp
  origin := stored record.origin

/-- `OrderProtocolDiagnosticSink::publish`: the bytes of the order. -/
def transmitted (describe : Content κ → Memory) (order : DiagnosticTransportOrder)
    (record : Content κ) : List Byte :=
  (order.setRecord record.header (describe record)).build.1

/-- An order that is received: `parse` and `process`. -/
def received (order : DiagnosticTransportOrder) (bytes : List Byte) (beyond : Memory)
    (now : Timestamp) : Option (Content κ) :=
  process (order.parse (memory bytes beyond)) now

/-- The members of the order before it is sent or received. -/
def blank : DiagnosticTransportOrder where
  id := 0#16

theorem process_congr {o o' : DiagnosticTransportOrder} (hid : o.id = o'.id)
    (horigin : o.origin = o'.origin) (hmessage : o.message = o'.message) (now : Timestamp) :
    (process o now : Option (Content κ)) = process o' now := by
  unfold process
  rw [hid, horigin, hmessage]

theorem parse_read (o : DiagnosticTransportOrder) (data : Memory) :
    (o.parse data).id = wordOfBytes (data 0) (data 1) ∧
      (o.parse data).origin = copyCString originCapacity (data.advance 4) ∧
      (o.parse data).message = copyCString TransportOrder.formattedMessageCapacity
        (data.advance (TransportOrder.originEnd data)) :=
  ⟨rfl, rfl, rfl⟩

/-- What an order held before makes no difference to what is sent and published. -/
theorem order_blank (describe : Content κ → Memory) (order : DiagnosticTransportOrder)
    (record : Content κ) (bytes : List Byte) (beyond : Memory) (now : Timestamp) :
    transmitted describe order record = transmitted describe blank record ∧
      (received order bytes beyond now : Option (Content κ)) = received blank bytes beyond now := by
  constructor
  · unfold transmitted
    rw [TransportOrder.build_eq, TransportOrder.build_eq]
    rfl
  · obtain ⟨hid, horigin, hmessage⟩ := parse_read order (memory bytes beyond)
    obtain ⟨hid', horigin', hmessage'⟩ := parse_read blank (memory bytes beyond)
    exact process_congr (hid.trans hid'.symm) (horigin.trans horigin'.symm)
      (hmessage.trans hmessage'.symm) now

/-- Every record that is sent is published again by its receiver. -/
theorem received_transmitted (describe : Content κ → Memory) (record : Content κ)
    (beyond : Memory) (now : Timestamp) :
    ∃ c : Content κ, received blank (transmitted describe blank record) beyond now = some c := by
  obtain ⟨hid, -⟩ := TransportRoundTrip.parse_build
    (blank.setRecord record.header (describe record)) blank beyond
  have hfor : (blank.parse (memory (transmitted describe blank record) beyond)).id =
      TransportOrder.idFor record.severity := hid
  unfold received process
  rw [hfor]
  cases record.severity with
  | info => exact ⟨_, rfl⟩
  | warning => exact ⟨_, rfl⟩
  | fault => exact ⟨_, rfl⟩

/-! ## Boards -/

variable {B : Type}

/-- Which record a record repeats, and through which sinks it has come. -/
structure Lineage (B : Type) where
  board : B
  seq : Nat
  path : List Nat := []
deriving DecidableEq

/-- The record sent on through a sink. -/
def Lineage.extend (l : Lineage B) (sink : Nat) : Lineage B :=
  { l with path := l.path ++ [sink] }

/-- An order on its way. -/
structure Message (B : Type) where
  source : B
  dest : B
  bytes : List Byte
  lineage : Lineage B

/-- The hub of each board, whether it has diagnostic orders in `Order::orders`, the board
that each of its sinks sends to, and what a run observes: the records published in each
hub and the orders sent. -/
structure Net (B κ : Type) where
  hub : B → Hub.State (Content κ)
  registered : B → Bool := fun _ => false
  target : B → Nat → Option B := fun _ _ => none
  records : B → List (Lineage B × Content κ) := fun _ => []
  inFlight : List (Message B) := []
  sent : List (Message B) := []

def initial (B κ : Type) : Net B κ where
  hub _ := Hub.initial _

variable (describe : Content κ → Memory)

/-- The order that a sink of the board `b` sends for a record. -/
def Net.message (n : Net B κ) (b : B) (a : Nat × Nat) : Option (Message B) :=
  (n.target b a.2).bind fun dest => ((n.records b)[a.1]?).map fun r =>
    { source := b, dest, bytes := transmitted describe blank r.2, lineage := r.1.extend a.2 }

variable [DecidableEq B]

/-- `Hub::publish` on the board `b`. -/
def Net.publish (n : Net B κ) (b : B) (priority : DiagnosticPriority) (content : Content κ)
    (lineage : Lineage B) : Net B κ :=
  { n with
    hub := Function.update n.hub b (Hub.publish priority content (n.hub b))
    records := Function.update n.records b (n.records b ++ [(lineage, content)]) }

/-- A flush has made `h` of the hub of the board `b`: what its sinks have accepted meanwhile
is sent. -/
def Net.flushed (n : Net B κ) (b : B) (h : Hub.State (Content κ)) : Net B κ :=
  let new := (h.accepted.filter fun a => a ∉ (n.hub b).accepted).filterMap (n.message describe b)
  { n with
    hub := Function.update n.hub b h
    inFlight := n.inFlight ++ new
    sent := n.sent ++ new }

/-- `Hub::emplace_sink` on the board `b`. An Ethernet sink has a transport order, which
puts itself in `Order::orders`. -/
def Net.install (n : Net B κ) (b : B) (fits ethernet : Bool) (target : Option B) : Net B κ :=
  match Hub.emplaceSink fits (n.hub b) with
  | (.ok sink, h) =>
    { n with
      hub := Function.update n.hub b h
      registered := Function.update n.registered b (n.registered b || ethernet)
      target := Function.update n.target b (Function.update (n.target b) sink target) }
  | (.error _, _) => n

/-- An order arrives: `Order::process_data`. -/
def Net.deliver (n : Net B κ) (m : Message B) (beyond : Memory) (now : Timestamp) : Net B κ :=
  if n.registered m.dest then
    match received blank m.bytes beyond now with
    | some content => n.publish m.dest .normal content m.lineage
    | none => n
  else n

/-- What happens to a network. The target of an Ethernet sink is the board at the other
end of its socket, if that is one of these boards. -/
inductive NetOp (B κ : Type)
  | publish (b : B) (priority : DiagnosticPriority) (content : Content κ)
  | flush (b : B) (now now' : BitVec 64)
  | flushUrgent (b : B) (now : BitVec 64)
  | installDefault (b : B) (fits : Bool)
  | installEthernet (b : B) (target : Option B)
  | deliver (index : Nat) (beyond : Memory) (now : Timestamp)
  | lose (index : Nat)

/-- `answers` says what the sinks of each board answer. -/
def NetOp.run (answers : B → Nat → Bool) (n : Net B κ) : NetOp B κ → Net B κ
  | .publish b priority content =>
    n.publish b priority content { board := b, seq := (n.hub b).published }
  | .flush b now now' => n.flushed describe b (Hub.flush true (answers b) now now' (n.hub b))
  | .flushUrgent b now => n.flushed describe b (Hub.flushUrgent true (answers b) now (n.hub b))
  | .installDefault b fits => n.install b fits false none
  | .installEthernet b target => n.install b true true target
  | .deliver index beyond now =>
    match n.inFlight[index]? with
    | some m => { n with inFlight := n.inFlight.eraseIdx index }.deliver m beyond now
    | none => n
  | .lose index => { n with inFlight := n.inFlight.eraseIdx index }

/-- The state after `ops`. -/
def after (answers : B → Nat → Bool) (ops : List (NetOp B κ)) : Net B κ :=
  ops.foldl (NetOp.run describe answers) (initial B κ)

/-- The sinks send along `links`. -/
def Along (links : B → B → Prop) (ops : List (NetOp B κ)) : Prop :=
  ∀ b t, .installEthernet b (some t) ∈ ops → links b t

/-- How often a record published at `root` has been sent, by any board. -/
def transmissions (root : B × Nat) (n : Net B κ) : Nat :=
  (n.sent.filter fun m => (m.lineage.board, m.lineage.seq) = root).length

end StLib.Diagnostics.Forwarding
