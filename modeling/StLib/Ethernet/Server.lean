import StLib.Ethernet.Callbacks
import StLib.Ethernet.ServerSocket

/-! # What the server owns

A server is off, listening with one block, or active on the block of the one connection that
it accepts. Each public call leaves it in one of the three, with nothing misused. -/
namespace StLib.Ethernet.Server

open Base.Bytes (Byte)
open Base.OwnedHeap Lwip Endpoint Calls Transmit Callbacks ServerSocket

variable {env : Env} {p c s : Nat} {b : Block} {hand : List Nat} {w : ServerSocket.World}

/-! ## Blocks that are given up -/

variable (env) in
theorem closeClientBlock_eq (hb : w.lwip.blocks p = some b) :
    closeClientBlock env p w = ((), { w with lwip := closedBlock env p w.lwip, block := none }) := by
  unfold closeClientBlock tcpArg tcpSent tcpRecv tcpErr tcpPoll
  refine (Touched.start hb).step fun _ h => h.step fun _ h => h.step fun _ h => h.step fun _ h =>
    h.step fun t h => (closeOrAbort_eq env onError _ h.block rfl).trans ?_
  rw [run_modify, h]
  simp only [closedBlock, counted, Function.update_idem]

variable (env) in
theorem closeServerBlock_eq (hb : w.lwip.blocks s = some b) (herr : b.err = none) :
    closeServerBlock env s w =
      ((), { w with lwip := closedBlock env s w.lwip, own := { w.own with server := none } }) := by
  unfold closeServerBlock tcpArg tcpAccept
  refine (Touched.start hb).step fun _ h => h.step fun t h =>
    (closeOrAbort_eq env onError _ h.block herr).trans ?_
  rw [run_modify, h]
  simp only [closedBlock, counted, Function.update_idem]

/-! ## The states of a server -/

/-- Without a block of its own; a block that could not listen stays as it was created. -/
structure Off (w : ServerSocket.World) : Prop where
  block : w.block = none
  server : w.own.server = none
  state : w.state = .inactive ∨ w.state = .closed
  tx : w.tx = []
  rx : w.rx = []
  unused : ∀ p b, w.lwip.blocks p = some b → b = {}

/-- The only block there is. -/
structure Sole (c : Nat) (b : Block) (w : ServerSocket.World) : Prop where
  blocks : w.lwip.blocks = Function.update (fun _ => none) c (some b)
  bound : c < w.lwip.nextBlock
  notAborted : c ∉ w.lwip.aborted

/-- The callbacks that are registered while listening. -/
structure ListeningBlock (b : Block) : Prop where
  arg : b.arg = true
  err : b.err = none
  poll : b.poll = none
  recv : b.recv = false
  sent : b.sent = false

structure Listening (s : Nat) (b : Block) (w : ServerSocket.World) : Prop extends Sole s b w where
  callbacks : ListeningBlock b
  block : w.block = none
  server : w.own.server = some s
  state : w.state = .listening
  tx : w.tx = []
  rx : w.rx = []

/-- The callbacks that are registered on a connection. -/
structure ActiveBlock (b : Block) : Prop where
  arg : b.arg = true
  err : b.err = some .error
  poll : b.poll = some .poll
  accept : b.accept = false

structure Active (c : Nat) (b : Block) (w : ServerSocket.World) : Prop extends Sole c b w where
  callbacks : ActiveBlock b
  block : w.block = some c
  server : w.own.server = none
  state : w.state = .accepted ∨ w.state = .closing
  flow : stream c w = (w.taken c).flatten
  rx : w.rx = []

inductive Phase (w : ServerSocket.World) : Prop
  | off (h : Off w)
  | listening (s : Nat) (b : Block) (h : Listening s b w)
  | active (c : Nat) (b : Block) (h : Active c b w)

/-- What a server keeps, with the packets of `hand` being processed. -/
structure Owned (hand : List Nat) (w : ServerSocket.World) : Prop where
  packets : Packets hand w
  fresh : Fresh w
  phase : Phase w

theorem Sole.live (h : Sole c b w) : w.lwip.blocks c = some b := by
  rw [h.blocks, Function.update_self]

theorem Sole.removed (h : Sole c b w) : Function.update w.lwip.blocks c none = fun _ => none := by
  rw [h.blocks, Function.update_idem]
  exact Function.update_eq_self c (fun _ => none)

theorem Sole.bounds (h : Sole c b w) (hp : w.lwip.blocks p ≠ none) : p = c := by
  by_contra hne
  rw [h.blocks, Function.update_of_ne hne] at hp
  exact hp rfl

/-! ## `close` -/

/-- What `close` does once no block is left. -/
def finish : ServerSocket.M Unit := do
  Endpoint.clearPacketQueues
  modify fun w => { w with state := .closed, own := { w.own with listed := false } }

theorem close_off (h : Off w) : close env w = finish w := by
  rw [ServerSocket.close, run_get_bind, h.block]
  dsimp only
  rw [run_get_bind, h.server]
  rfl

theorem close_listening (h : Listening s b w) :
    close env w =
      finish { w with lwip := closedBlock env s w.lwip, own := { w.own with server := none } } := by
  have hclose := closeServerBlock_eq env h.live h.callbacks.err
  rw [ServerSocket.close, run_get_bind]
  conv_lhs => rw [h.block]
  dsimp only
  rw [run_get_bind]
  conv_lhs => rw [h.server]
  dsimp only
  rw [run_bind, hclose]
  rfl

theorem close_active (h : Active c b w) :
    close env w = finish { w with lwip := closedBlock env c w.lwip, block := none } := by
  have hclose := closeClientBlock_eq env h.live
  rw [ServerSocket.close, run_get_bind]
  conv_lhs => rw [h.block]
  dsimp only
  rw [run_bind, hclose, run_get_bind]
  conv_lhs => rw [h.server]
  rfl

/-- After `finish`. -/
def finished (pbufs : Nat → Option (List Byte)) (w : ServerSocket.World) : ServerSocket.World :=
  { w with
    lwip := { w.lwip with pbufs := pbufs }
    state := .closed
    tx := []
    rx := []
    own := { w.own with listed := false } }

theorem finish_eq (h : Packets hand w) :
    ∃ pbufs, finish w = ((), finished pbufs w) ∧ Owns pbufs w.lwip.nextPbuf hand := by
  obtain ⟨pbufs, hclear, howns⟩ := clearPacketQueues_spec h
  refine ⟨pbufs, ?_, howns⟩
  rw [finish, run_bind, hclear]
  rfl

/-- A closed server. -/
structure ClosesTo (hand : List Nat) (aborted : List Nat) (t : ServerSocket.World) : Prop where
  owned : Owned hand t
  off : Off t
  aborted : t.lwip.aborted = aborted

/-- With no block left `finish` turns the server off. -/
theorem finish_spec (h : Packets hand w) (hfresh : Fresh w) (hblock : w.block = none)
    (hserver : w.own.server = none) (hunused : ∀ p b, w.lwip.blocks p = some b → b = {}) :
    ClosesTo hand w.lwip.aborted (finish w).2 := by
  obtain ⟨pbufs, heq, howns⟩ := finish_eq h
  have hoff : Off (finished pbufs w) := ⟨hblock, hserver, .inr rfl, rfl, rfl, hunused⟩
  rw [heq]
  exact ⟨⟨⟨h.misused, howns⟩, hfresh, .off hoff⟩, hoff, rfl⟩

theorem closedBlock_fresh {block : Option Nat} {own : ServerSocket.Server} (hfresh : Fresh w)
    (hbound : c < w.lwip.nextBlock) :
    Fresh { w with lwip := closedBlock env c w.lwip, block := block, own := own } := by
  intro q hq
  obtain ⟨hwritten, htaken, haborted⟩ := hfresh q hq
  refine ⟨hwritten, htaken, fun hmem => ?_⟩
  rcases (mem_closedBlock w.lwip q).mp hmem with hold | ⟨rfl, -⟩
  · exact haborted hold
  · exact absurd hbound (Nat.not_lt_of_le hq)

theorem Sole.unused (h : Sole c b w) (q : Nat) (b' : Block)
    (hq : (closedBlock env c w.lwip).blocks q = some b') : b' = {} := by
  change Function.update w.lwip.blocks c none q = some b' at hq
  rw [h.removed] at hq
  cases hq

theorem close_off_spec (h : Owned hand w) (hoff : Off w) :
    ClosesTo hand w.lwip.aborted (ServerSocket.close env w).2 := by
  rw [close_off hoff]
  exact finish_spec h.packets h.fresh hoff.block hoff.server hoff.unused

theorem close_active_spec (h : Owned hand w) (hc : Active c b w) :
    ClosesTo hand (closedBlock env c w.lwip).aborted (ServerSocket.close env w).2 := by
  rw [close_active hc]
  exact finish_spec (w := { w with lwip := closedBlock env c w.lwip, block := none })
    ⟨h.packets.misused, h.packets.owned⟩ (closedBlock_fresh h.fresh hc.bound) rfl hc.server
    hc.toSole.unused

theorem close_spec (h : Owned hand w) :
    Owned hand (ServerSocket.close env w).2 ∧ Off (ServerSocket.close env w).2 := by
  cases h.phase with
  | off hoff =>
    have hclose : ClosesTo hand _ (ServerSocket.close env w).2 := close_off_spec h hoff
    exact ⟨hclose.owned, hclose.off⟩
  | listening s b hs =>
    rw [close_listening hs]
    have hclose := finish_spec
      (w := { w with lwip := closedBlock env s w.lwip, own := { w.own with server := none } })
      ⟨h.packets.misused, h.packets.owned⟩ (closedBlock_fresh h.fresh hs.bound) hs.block rfl
      hs.toSole.unused
    exact ⟨hclose.owned, hclose.off⟩
  | active c b hc =>
    have hclose : ClosesTo hand _ (ServerSocket.close env w).2 := close_active_spec h hc
    exact ⟨hclose.owned, hclose.off⟩

/-- `close` aborts the block of a connection when `tcp_close` fails. -/
theorem close_active_aborted (h : Owned hand w) (hc : Active c b w) :
    c ∈ (ServerSocket.close env w).2.lwip.aborted ↔ CloseFails env w := by
  have hclose : ClosesTo hand _ (ServerSocket.close env w).2 := close_active_spec h hc
  rw [hclose.aborted, mem_closedBlock, or_iff_right hc.notAborted]
  exact and_iff_right rfl

/-! ## Sending -/

theorem Active.transmits {hand' : List Nat} {x : List Byte} {w' : ServerSocket.World}
    {taken : Nat → List (List Byte)} (h : Active c b w) (ho : Owned hand' w)
    (ht : Transmits ServerSocket.states hand c x w w') (htaken : ∀ p, p ≠ c → taken p = w.taken p)
    (hflow : (taken c).flatten = (w.taken c).flatten ++ x) :
    Owned hand { w' with taken := taken } ∧ Active c b { w' with taken := taken } := by
  have hactive : Active c b { w' with taken := taken } := by
    refine ⟨⟨ht.blocks.trans h.blocks, ?_, ?_⟩, h.callbacks, ht.block.trans h.block, ?_, ?_, ?_,
      ht.rx.trans h.rx⟩
    · change c < w'.lwip.nextBlock
      rw [ht.nextBlock]
      exact h.bound
    · change c ∉ w'.lwip.aborted
      rw [ht.aborted]
      exact h.notAborted
    · exact (congrArg ServerSocket.Server.server ht.own).trans h.server
    · rcases ht.state with hs | ⟨-, hs⟩
      · exact hs ▸ h.state
      · exact .inr hs
    · change stream c w' = _
      rw [ht.grows, hflow, h.flow]
  exact ⟨⟨⟨ht.packets.misused, ht.packets.owned⟩, ht.fresh ho.fresh h.bound htaken,
    .active c b hactive⟩, hactive⟩

/-- A call that leaves a connection open. -/
structure Stays (hand : List Nat) (c : Nat) (b : Block) (w t : ServerSocket.World) : Prop where
  owned : Owned hand t
  active : Active c b t
  closes : t.lwip.count .tcpClose = w.lwip.count .tcpClose

theorem send_stays (h : Owned hand w) (hc : Active c b w) :
    Stays hand c b w (ServerSocket.send env w).2 := by
  have ht := (send_spec ServerSocket.states env h.packets hc.block hc.live).1
  have hsame : ((Endpoint.send ServerSocket.states env w).2.taken c).flatten =
      (w.taken c).flatten ++ [] := by
    rw [ht.taken, List.append_nil]
  obtain ⟨howned, hactive⟩ := hc.transmits h ht (fun p _ => congrFun ht.taken p) hsame
  exact ⟨howned, hactive, ht.closes⟩

theorem sendOrder_stays (order : Endpoint.Order) (h : Owned hand w) (hc : Active c b w) :
    Stays hand c b w (ServerSocket.sendOrder env order w).2 := by
  by_cases hstate : w.state = .accepted
  · obtain ⟨w', taken, x, heq, ht, hother, hflow⟩ :=
      sendOrder_takes ServerSocket.states env (d := pure ()) order h.packets hc.block hc.live hstate
    obtain ⟨howned, hactive⟩ := hc.transmits h ht hother hflow
    rw [ServerSocket.sendOrder, heq]
    exact ⟨howned, hactive, ht.closes⟩
  · rw [ServerSocket.sendOrder, sendOrder_disconnected order (.inr hstate)]
    exact ⟨h, hc, rfl⟩

/-! ## Calls -/

/-- Without a connection `send` and `send_order` do nothing. -/
theorem send_unconnected (h : w.block = none) : ServerSocket.send env w = ((), w) := send_none h

theorem sendOrder_unconnected (order : Endpoint.Order) (h : w.block = none) :
    (ServerSocket.sendOrder env order w).2 = w := by
  rw [ServerSocket.sendOrder, sendOrder_disconnected order (.inl h)]
  rfl

/-- Without a connection nothing is sent. -/
theorem unconnected (h : Owned hand w) : w.block = none ∨ ∃ c b, Active c b w := by
  cases h.phase with
  | off hoff => exact .inl hoff.block
  | listening s b hs => exact .inl hs.block
  | active c b hc => exact .inr ⟨c, b, hc⟩

/-- A call keeps what a server owns. -/
theorem call_keeps (call : ServerSocket.Call) (h : Owned hand w) : Owned hand (call.run env w).2 := by
  cases call with
  | sendOrder order =>
    change Owned hand (ServerSocket.sendOrder env order w).2
    obtain hnone | ⟨c, b, hc⟩ := unconnected h
    · rw [sendOrder_unconnected order hnone]
      exact h
    · exact (sendOrder_stays order h hc).owned
  | send =>
    change Owned hand (ServerSocket.send env w).2
    obtain hnone | ⟨c, b, hc⟩ := unconnected h
    · rw [send_unconnected hnone]
      exact h
    · exact (send_stays h hc).owned
  | close => exact (close_spec h).1

theorem runAll_keeps (calls : List ServerSocket.Call) (h : Owned hand w) :
    Owned hand (runAll env calls w).2 := by
  induction calls generalizing w with
  | nil => exact h
  | cons call rest ih => exact ih (call_keeps call h)

/-- A server that is off stays off. -/
theorem call_off (call : ServerSocket.Call) (h : Owned hand w) (hoff : Off w) :
    ClosesTo hand w.lwip.aborted (call.run env w).2 := by
  cases call with
  | sendOrder order =>
    change ClosesTo hand w.lwip.aborted (ServerSocket.sendOrder env order w).2
    rw [sendOrder_unconnected order hoff.block]
    exact ⟨h, hoff, rfl⟩
  | send =>
    change ClosesTo hand w.lwip.aborted (ServerSocket.send env w).2
    rw [send_unconnected hoff.block]
    exact ⟨h, hoff, rfl⟩
  | close => exact close_off_spec h hoff

theorem runAll_off (calls : List ServerSocket.Call) (h : Owned hand w) (hoff : Off w) :
    (runAll env calls w).2.lwip.aborted = w.lwip.aborted := by
  induction calls generalizing w with
  | nil => rfl
  | cons call rest ih =>
    have hcall : ClosesTo hand _ (call.run env w).2 := call_off call h hoff
    exact (ih hcall.owned hcall.off).trans hcall.aborted

/-- The calls close the connection, and `tcp_close` refuses it. -/
def abortsBlock (closeFails : Bool) : List ServerSocket.Call → Bool
  | [] => false
  | .close :: _ => closeFails
  | _ :: rest => abortsBlock closeFails rest

theorem runAll_aborted (calls : List ServerSocket.Call) (h : Owned hand w) (hc : Active c b w) :
    c ∈ (runAll env calls w).2.lwip.aborted ↔ abortsBlock (CloseFails env w) calls = true := by
  induction calls generalizing w with
  | nil => exact iff_of_false hc.notAborted Bool.false_ne_true
  | cons call rest ih =>
    have hgoes : Stays hand c b w (call.run env w).2 →
        (c ∈ (runAll env (call :: rest) w).2.lwip.aborted ↔
          abortsBlock (CloseFails env w) rest = true) := by
      intro hstays
      have hrest := ih hstays.owned hstays.active
      simp only [CloseFails, hstays.closes] at hrest
      exact hrest
    cases call with
    | sendOrder order => exact hgoes (sendOrder_stays order h hc)
    | send => exact hgoes (send_stays h hc)
    | close =>
      obtain ⟨howned, hoff⟩ : _ ∧ Off (ServerSocket.close env w).2 := close_spec h
      have hrest : (runAll env (.close :: rest) w).2.lwip.aborted = _ := runAll_off rest howned hoff
      rw [hrest]
      exact (close_active_aborted h hc).trans decide_eq_true_iff.symm

/-! ## Packets -/

/-- Counting an answer changes nothing that a server owns. -/
theorem counted_owned (f : Fn) (h : Owned hand w) : Owned hand { w with lwip := counted f w.lwip } := by
  refine ⟨⟨h.packets.misused, h.packets.owned⟩, h.fresh, ?_⟩
  cases h.phase with
  | off hoff => exact .off ⟨hoff.block, hoff.server, hoff.state, hoff.tx, hoff.rx, hoff.unused⟩
  | listening s b hs =>
    exact .listening s b ⟨⟨hs.blocks, hs.bound, hs.notAborted⟩, hs.callbacks, hs.block, hs.server, hs.state,
      hs.tx, hs.rx⟩
  | active c b hc =>
    exact .active c b ⟨⟨hc.blocks, hc.bound, hc.notAborted⟩, hc.callbacks, hc.block, hc.server, hc.state,
      hc.flow, hc.rx⟩

theorem counted_active (f : Fn) (hc : Active c b w) : Active c b { w with lwip := counted f w.lwip } :=
  ⟨⟨hc.blocks, hc.bound, hc.notAborted⟩, hc.callbacks, hc.block, hc.server, hc.state, hc.flow, hc.rx⟩

theorem freed_owned {d : Nat} (h : Owned (d :: hand) w) : Owned hand (freed d w) := by
  have hfreed : Transmits ServerSocket.states hand 0 [] w (freed d w) := .freed h.packets
  refine ⟨hfreed.packets, h.fresh, ?_⟩
  cases h.phase with
  | off hoff => exact .off ⟨hoff.block, hoff.server, hoff.state, hoff.tx, hoff.rx, hoff.unused⟩
  | listening s b hs =>
    exact .listening s b ⟨⟨hs.blocks, hs.bound, hs.notAborted⟩, hs.callbacks, hs.block, hs.server, hs.state,
      hs.tx, hs.rx⟩
  | active c b hc =>
    exact .active c b (hc.transmits h (.freed h.packets) (fun _ _ => rfl) (List.append_nil _).symm).2

variable {handlers : Nat → List ServerSocket.Call}

/-- What the order callbacks of a parse do. -/
def parse (env : Env) (handlers : Nat → List ServerSocket.Call) (n : Nat) : ServerSocket.M Unit :=
  runAll env (handlers n)

/-- The order callbacks of a parse abort the block. -/
def aborts (handlers : Nat → List ServerSocket.Call) (closeFails : Bool) (n : Nat) : Bool :=
  abortsBlock closeFails (handlers n)

theorem parsed_owned (data : List Byte) (h : Owned hand w) :
    Owned hand (parsed env (parse env handlers) data w) :=
  parsed_rule data (fun f _ => counted_owned f) (fun n _ => runAll_keeps (handlers n)) h

theorem parsed_aborted (data : List Byte) (h : Owned hand w) (hc : Active c b w) :
    c ∈ (parsed env (parse env handlers) data w).lwip.aborted ↔
      Breaks env (aborts handlers) data w := by
  have howned := counted_owned .parse (counted_owned .pbufCopyPartial h)
  have hactive := counted_active .parse (counted_active .pbufCopyPartial hc)
  exact parsed_aborted_iff data hc.notAborted (runAll_aborted (handlers (w.lwip.count .parse)) howned hactive)

variable (env handlers) in
/-- The connection of a server. -/
theorem connection : Connection ServerSocket.states env (parse env handlers) (ServerSocket.close env)
    (aborts handlers) Owned Active where
  packets h := h.packets
  block hc := hc.block
  live hc := hc.live
  rx hc := hc.rx
  notAborted hc := hc.notAborted
  transmits h hc ht :=
    hc.transmits h ht (fun p _ => congrFun ht.taken p) (by rw [ht.taken, List.append_nil])
  closing h hc :=
    ⟨⟨h.packets.misused, h.packets.owned⟩, h.fresh, .active _ _
      ⟨⟨hc.blocks, hc.bound, hc.notAborted⟩, hc.callbacks, hc.block, hc.server, .inr rfl, hc.flow, hc.rx⟩⟩
  closed h hc := ⟨(close_spec h).1, close_active_aborted h hc⟩
  parsed data h hc := ⟨parsed_owned data h, parsed_aborted data h hc⟩
  freed h := freed_owned h

end StLib.Ethernet.Server
