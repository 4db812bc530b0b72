import StLib.Base.Runs
import StLib.Ethernet.Callbacks
import StLib.Ethernet.Client

/-! # Runs of the TCP client

Public calls and lwIP callbacks in any order in which lwIP makes them: it calls back for the
blocks there are, with what is registered on them, reports a connection once, and frees a
block before it reports its error. -/
namespace StLib.Ethernet.ClientRuns

open Base.Bytes (Byte)
open Base.OwnedHeap Base.Runs Lwip Endpoint Calls Transmit Callbacks Socket Client

/-! ## Events -/

/-- A packet arrives with its contents, and is null when the peer has closed. -/
inductive Event
  | call (call : Socket.Call)
  | connect (p : Nat) (error : Err)
  | receive (p : Nat) (packet : Option (List Byte)) (error : Err)
  | poll (p : Nat)
  | sent (p : Nat)
  | error (p : Nat)

/-- A client before its constructor. -/
def initial (useKeepAlives : Bool) : Socket.World where
  lwip := {}
  state := .inactive
  block := none
  tx := []
  rx := []
  own := { useKeepAlives := useKeepAlives }

variable (env : Env) (handlers : Nat → List Socket.Call)

/-- The constructed client. -/
def start (useKeepAlives : Bool) : Socket.World := (construct env (initial useKeepAlives)).2

/-- What lwIP does with a block that is connected. -/
def established (b : Block) : Block := { b with state := .other }

/-- A callback of lwIP for a block, with what it returns where it returns something. -/
def callback (w : Socket.World) (b : Block) : Event → Option (Option Err × Socket.World)
  | .call _ => none
  | .connect p error =>
    if b.connected ∧ b.state = .synSent then
      let r := connectCallback env b.arg p error (setBlock p (some (established b)) w)
      some (some r.1, r.2)
    else none
  | .receive p packet error =>
    if b.recv then
      let r :=
        match packet with
        | none => Socket.receiveCallback env handlers b.arg p none error w
        | some data =>
          Socket.receiveCallback env handlers b.arg p (some w.lwip.nextPbuf) error (arrived data w)
      some (some r.1, r.2)
    else none
  | .poll p =>
    match b.poll with
    | some .poll =>
      let r := Socket.pollCallback env handlers b.arg p w
      some (some r.1, r.2)
    | some .connectionPoll =>
      let r := connectionPollCallback env b.arg p w
      some (some r.1, r.2)
    | none => none
  | .sent p =>
    if b.sent then
      let r := Socket.sendCallback env b.arg p w
      some (some r.1, r.2)
    else none
  | .error p =>
    match b.err with
    | some .error => some (none, (errorCallback b.arg (setBlock p none w)).2)
    | some .connectionError => some (none, (connectionErrorCallback b.arg (setBlock p none w)).2)
    | none => some (none, setBlock p none w)

/-- The block that an event is for. -/
def Event.block : Event → Option Nat
  | .call _ => none
  | .connect p _ | .receive p _ _ | .poll p | .sent p | .error p => some p

def deliver (w : Socket.World) (e : Event) : Option (Option Err × Socket.World) :=
  match e with
  | .call call => some (none, (call.run env w).2)
  | e =>
    match e.block.bind w.lwip.blocks with
    | some b => callback env handlers w b e
    | none => none

abbrev Step (w : Socket.World) (e : Event) (t : Socket.World) : Prop :=
  ∃ result, deliver env handlers w e = some (result, t)

/-! ## Calls -/

section Calls

variable {env handlers} {p c : Nat} {b : Block} {hand : List Nat} {w : Socket.World}

/-- A call that leaves a connection open. -/
structure Stays (hand : List Nat) (c : Nat) (b : Block) (w t : Socket.World) : Prop where
  owned : Owned hand t
  active : Active c b t
  spares : Spares w t
  closes : t.lwip.count .tcpClose = w.lwip.count .tcpClose

theorem Stays.refl (h : Owned hand w) (hc : Active c b w) : Stays hand c b w w :=
  ⟨h, hc, .refl w, rfl⟩

theorem Stays.trans {u v : Socket.World} (h : Stays hand c b w u) (h' : Stays hand c b u v) :
    Stays hand c b w v :=
  ⟨h'.owned, h'.active, h.spares.trans h'.spares, h'.closes.trans h.closes⟩

theorem Stays.of_transmits {x : List Byte} {w' : Socket.World} {taken : Nat → List (List Byte)}
    (h : Owned hand w) (hc : Active c b w) (ht : Transmits Socket.states hand c x w w')
    (htaken : ∀ p, p ≠ c → taken p = w.taken p)
    (hflow : (taken c).flatten = (w.taken c).flatten ++ x) :
    Stays hand c b w { w' with taken := taken } := by
  obtain ⟨howned, hactive, hspares⟩ := hc.transmits h ht htaken hflow
  exact ⟨howned, hactive, hspares, ht.closes⟩

/-- Transmitting takes no order of itself. -/
theorem Stays.of_transmits_nil {w' : Socket.World} (h : Owned hand w) (hc : Active c b w)
    (ht : Transmits Socket.states hand c [] w w') : Stays hand c b w w' := by
  have hflow : (w'.taken c).flatten = (w.taken c).flatten ++ [] := by
    rw [ht.taken, List.append_nil]
  exact Stays.of_transmits h hc ht (fun p _ => congrFun ht.taken p) hflow

theorem send_stays (h : Owned hand w) (hc : Active c b w) : Stays hand c b w (Socket.send env w).2 :=
  .of_transmits_nil h hc (send_spec Socket.states env h.packets hc.block hc.live).1

theorem sendOrder_stays (order : Endpoint.Order) (h : Owned hand w) (hc : Active c b w) :
    Stays hand c b w (Socket.sendOrder env order w).2 := by
  by_cases hstate : w.state = .connected
  · obtain ⟨w', taken, x, heq, ht, hother, hflow⟩ :=
      sendOrder_takes Socket.states env (d := Socket.reconnect env) order h.packets hc.block hc.live hstate
    rw [Socket.sendOrder, heq]
    exact .of_transmits h hc ht hother hflow
  · rw [Socket.sendOrder, sendOrder_disconnected order (.inr hstate), hc.reconnect]
    exact .refl h hc

/-- Without a connection nothing is sent. -/
theorem unconnected (h : Owned hand w) : w.block = none ∨ ∃ c b, Active c b w := by
  cases h.phase with
  | closed hc => exact .inl hc.block
  | connecting c b hc => exact .inl hc.block
  | active c b hc => exact .inr ⟨c, b, hc⟩

theorem sendOrder_keeps (order : Endpoint.Order) (h : Owned hand w) :
    Owned hand (Socket.sendOrder env order w).2 ∧ Spares w (Socket.sendOrder env order w).2 := by
  obtain hnone | ⟨c, b, hc⟩ := unconnected h
  · rw [Socket.sendOrder, sendOrder_disconnected order (.inl hnone)]
    exact reconnect_spec h
  · have hstays : Stays hand c b w (Socket.sendOrder env order w).2 := sendOrder_stays order h hc
    exact ⟨hstays.owned, hstays.spares⟩

theorem send_keeps (h : Owned hand w) :
    Owned hand (Socket.send env w).2 ∧ Spares w (Socket.send env w).2 := by
  obtain hnone | ⟨c, b, hc⟩ := unconnected h
  · rw [Socket.send, send_none hnone]
    exact ⟨h, .refl w⟩
  · have hstays : Stays hand c b w (Socket.send env w).2 := send_stays h hc
    exact ⟨hstays.owned, hstays.spares⟩

/-- A call keeps what a client owns. -/
theorem call_keeps (call : Socket.Call) (h : Owned hand w) :
    Owned hand (call.run env w).2 ∧ Spares w (call.run env w).2 := by
  cases call with
  | sendOrder order => exact sendOrder_keeps order h
  | send => exact send_keeps h
  | reconnect => exact reconnect_spec h
  | close =>
    have hclose : _ ∧ _ ∧ Spares w (Socket.close env w).2 := close_spec h
    obtain ⟨howned, -, hspares⟩ := hclose
    exact ⟨howned, hspares⟩
  | reset =>
    obtain ⟨howned, hspares, -⟩ := reset_spec env h
    exact ⟨howned, hspares⟩

theorem runAll_keeps (calls : List Socket.Call) (h : Owned hand w) :
    Owned hand (runAll env calls w).2 ∧ Spares w (runAll env calls w).2 := by
  induction calls generalizing w with
  | nil => exact ⟨h, .refl w⟩
  | cons call rest ih =>
    have hcall : _ ∧ Spares w (call.run env w).2 := call_keeps call h
    obtain ⟨howned, hspares⟩ := hcall
    obtain ⟨howned', hspares'⟩ := ih howned
    rw [runAll, run_bind]
    exact ⟨howned', hspares.trans hspares'⟩

/-- The first of the calls that ends the connection aborts its block: a reset, or a close that
`tcp_close` refuses. -/
def abortsBlock (closeFails : Bool) : List Socket.Call → Bool
  | [] => false
  | .close :: _ => closeFails
  | .reset :: _ => true
  | _ :: rest => abortsBlock closeFails rest

/-- A block that was given up stays as it is. -/
theorem runAll_aborted_spare (calls : List Socket.Call) (h : Owned hand w) (hp : p < w.lwip.nextBlock)
    (hc : w.own.connection ≠ some p) :
    p ∈ (runAll env calls w).2.lwip.aborted ↔ p ∈ w.lwip.aborted :=
  (runAll_keeps calls h).2.aborted p hp hc

theorem runAll_aborted (calls : List Socket.Call) (h : Owned hand w) (hc : Active c b w) :
    c ∈ (runAll env calls w).2.lwip.aborted ↔
      abortsBlock (env.tcpClose (w.lwip.count .tcpClose) ≠ .ok) calls = true := by
  induction calls generalizing w with
  | nil => exact iff_of_false hc.notAborted Bool.false_ne_true
  | cons call rest ih =>
    have hgoes : Stays hand c b w (call.run env w).2 →
        (c ∈ (runAll env (call :: rest) w).2.lwip.aborted ↔
          abortsBlock (env.tcpClose (w.lwip.count .tcpClose) ≠ .ok) rest = true) := by
      intro hstays
      have hrest := ih hstays.owned hstays.active
      rwa [hstays.closes] at hrest
    cases call with
    | sendOrder order => exact hgoes (sendOrder_stays order h hc)
    | send => exact hgoes (send_stays h hc)
    | reconnect =>
      refine hgoes ?_
      change Stays hand c b w (Socket.reconnect env w).2
      rw [hc.reconnect]
      exact .refl h hc
    | close =>
      have hclose : _ ∧ _ ∧ Spares w (Socket.close env w).2 := close_spec h
      obtain ⟨howned, hclosed, hspares⟩ := hclose
      have hbound := Nat.lt_of_lt_of_le hc.bound hspares.nextBlock
      have hother : (Socket.close env w).2.own.connection ≠ some c := by
        rw [hclosed.connection]
        nofun
      exact (runAll_aborted_spare rest howned hbound hother).trans
        ((close_active_aborted h hc).trans decide_eq_true_iff.symm)
    | reset =>
      obtain ⟨howned, hspares, hlast⟩ := reset_spec env h
      obtain ⟨haborted, hother⟩ := hlast c hc.connection
      have hbound := Nat.lt_of_lt_of_le hc.bound hspares.nextBlock
      exact (runAll_aborted_spare rest howned hbound hother).trans (iff_of_true haborted rfl)

/-! ## Packets -/

/-- Counting an answer changes nothing that a client owns. -/
theorem counted_owned (f : Fn) (h : Owned hand w) : Owned hand { w with lwip := counted f w.lwip } := by
  refine ⟨⟨h.packets.misused, h.packets.owned⟩, h.fresh, ?_⟩
  cases h.phase with
  | closed hc => exact .closed ⟨⟨hc.block, hc.state, hc.tx, hc.rx⟩, hc.blocks, hc.connection⟩
  | connecting c b hc =>
    exact .connecting c b ⟨⟨hc.block, hc.state, hc.tx, hc.rx⟩,
      ⟨hc.blocks, hc.connection, hc.bound, hc.notAborted⟩, hc.callbacks, hc.written, hc.taken⟩
  | active c b hc =>
    exact .active c b ⟨⟨hc.blocks, hc.connection, hc.bound, hc.notAborted⟩, hc.callbacks, hc.block,
      hc.state, hc.flow, hc.calm, hc.rx⟩

theorem counted_active (f : Fn) (hc : Active c b w) : Active c b { w with lwip := counted f w.lwip } :=
  ⟨⟨hc.blocks, hc.connection, hc.bound, hc.notAborted⟩, hc.callbacks, hc.block, hc.state, hc.flow,
    hc.calm, hc.rx⟩

theorem freed_active {d : Nat} (h : Owned (d :: hand) w) (hc : Active c b w) : Active c b (freed d w) :=
  (hc.transmits h (.freed h.packets) (fun _ _ => rfl) (List.append_nil _).symm).2.1

theorem freed_owned {d : Nat} (h : Owned (d :: hand) w) : Owned hand (freed d w) := by
  have hfreed : Transmits Socket.states hand 0 [] w (freed d w) := .freed h.packets
  refine ⟨hfreed.packets, h.fresh, ?_⟩
  cases h.phase with
  | closed hc => exact .closed ⟨⟨hc.block, hc.state, hc.tx, hc.rx⟩, hc.blocks, hc.connection⟩
  | connecting c b hc =>
    exact .connecting c b ⟨⟨hc.block, hc.state, hc.tx, hc.rx⟩,
      ⟨hc.blocks, hc.connection, hc.bound, hc.notAborted⟩, hc.callbacks, hc.written, hc.taken⟩
  | active c b hc => exact .active c b (freed_active h hc)

/-- What the order callbacks of a parse do. -/
def parse (env : Env) (handlers : Nat → List Socket.Call) (n : Nat) : Socket.M Unit :=
  runAll env (handlers n)

theorem parsed_owned (data : List Byte) (h : Owned hand w) :
    Owned hand (parsed env (parse env handlers) data w) :=
  parsed_rule data (fun f _ => counted_owned f) (fun n _ h => (runAll_keeps (handlers n) h).1) h

theorem parsed_aborted (data : List Byte) (h : Owned hand w) (hc : Active c b w) :
    c ∈ (parsed env (parse env handlers) data w).lwip.aborted ↔
      env.pbufCopyPartial (w.lwip.count .pbufCopyPartial) = data.length ∧
        abortsBlock (env.tcpClose (w.lwip.count .tcpClose) ≠ .ok) (handlers (w.lwip.count .parse)) =
          true := by
  have howned := counted_owned .parse (counted_owned .pbufCopyPartial h)
  have hactive := counted_active .parse (counted_active .pbufCopyPartial hc)
  exact parsed_aborted_iff data hc.notAborted (runAll_aborted (handlers (w.lwip.count .parse)) howned hactive)

end Calls

end StLib.Ethernet.ClientRuns
