import StLib.Base.Runs
import StLib.Ethernet.Server

/-! # Runs of the TCP server

Public calls and lwIP callbacks in any order in which lwIP makes them: it calls back for the
blocks there are, with what is registered on them, gives the block of a connection to the
listener it came for, and frees a block before it reports its error. -/
namespace StLib.Ethernet.ServerRuns

open Base.Bytes (Byte)
open Base.OwnedHeap Lwip Endpoint Calls Transmit Callbacks ServerSocket Server

/-! ## Events -/

/-- A packet arrives with its contents, and is null when the peer has closed; a connection
arrives with a block or without. -/
inductive Event
  | call (call : ServerSocket.Call)
  | accept (s : Nat) (incoming : Bool) (error : Err)
  | receive (p : Nat) (packet : Option (List Byte)) (error : Err)
  | poll (p : Nat)
  | sent (p : Nat)
  | error (p : Nat)

/-- A server before its constructor. -/
def initial : ServerSocket.World where
  lwip := {}
  state := .inactive
  block := none
  tx := []
  rx := []
  own := {}

variable (env : Env) (handlers : Nat → List ServerSocket.Call)

/-- The constructed server. -/
def start : ServerSocket.World := (construct env initial).2

/-- The block of a new connection has the argument of its listener. -/
def incoming (listener : Block) (w : ServerSocket.World) : ServerSocket.World :=
  { w with
    lwip := { w.lwip with
      blocks := Function.update w.lwip.blocks w.lwip.nextBlock (some { state := .other, arg := listener.arg })
      nextBlock := w.lwip.nextBlock + 1 } }

/-- A callback of lwIP for a block, with what it returns where it returns something. -/
def callback (w : ServerSocket.World) (b : Block) : Event → Option (Option Err × ServerSocket.World)
  | .call _ => none
  | .accept _ arrives error =>
    if b.accept then
      let r :=
        if arrives then acceptCallback env b.arg (some w.lwip.nextBlock) error (incoming b w)
        else acceptCallback env b.arg none error w
      some (some r.1, r.2)
    else none
  | .receive p packet error =>
    if b.recv then
      let r :=
        match packet with
        | none => ServerSocket.receiveCallback env handlers b.arg p none error w
        | some data =>
          ServerSocket.receiveCallback env handlers b.arg p (some w.lwip.nextPbuf) error (arrived data w)
      some (some r.1, r.2)
    else none
  | .poll p =>
    match b.poll with
    | some _ =>
      let r := ServerSocket.pollCallback env handlers b.arg p w
      some (some r.1, r.2)
    | none => none
  | .sent p =>
    if b.sent then
      let r := ServerSocket.sendCallback env b.arg p w
      some (some r.1, r.2)
    else none
  | .error p =>
    match b.err with
    | some _ => some (none, (errorCallback b.arg (setBlock p none w)).2)
    -- a block that listens, or was never opened, is not freed by lwIP
    | none => none

/-- The block that has the callback of an event. -/
def Event.block : Event → Option Nat
  | .call _ => none
  | .accept p _ _ | .receive p _ _ | .poll p | .sent p | .error p => some p

def deliver (w : ServerSocket.World) (e : Event) : Option (Option Err × ServerSocket.World) :=
  match e with
  | .call call => some (none, (call.run env w).2)
  | e =>
    match e.block.bind w.lwip.blocks with
    | some b => callback env handlers w b e
    | none => none

abbrev Step (w : ServerSocket.World) (e : Event) (t : ServerSocket.World) : Prop :=
  ∃ result, deliver env handlers w e = some (result, t)

variable {env handlers} {c s : Nat} {b : Block} {error : Err} {w : ServerSocket.World}

/-! ## The constructor -/

/-- After `tcp_new`. -/
def created (w : ServerSocket.World) : ServerSocket.World :=
  { w with
    lwip := { counted .tcpNew w.lwip with
      blocks := Function.update w.lwip.blocks w.lwip.nextBlock (some {})
      nextBlock := w.lwip.nextBlock + 1 }
    own := { w.own with server := some w.lwip.nextBlock } }

/-- After a block that cannot be bound was aborted. -/
def unbound (w : ServerSocket.World) : ServerSocket.World :=
  { w with
    lwip := abortBlock w.lwip.nextBlock (counted .tcpBind (created w).lwip)
    own := { w.own with server := none } }

/-- After a block that cannot listen was left. -/
def unlistened (w : ServerSocket.World) : ServerSocket.World :=
  { w with
    lwip := counted .tcpListen (counted .tcpBind (created w).lwip)
    own := { w.own with server := none } }

/-- The block of a listener. -/
def listener : Block := { state := .other, arg := true, accept := true }

/-- After the listener was set up. -/
def listening (w : ServerSocket.World) : ServerSocket.World :=
  setBlock (w.lwip.nextBlock + 1) (some listener)
    { w with
      lwip := listened w.lwip.nextBlock (counted .tcpBind (created w).lwip)
      state := .listening
      own := { server := some (w.lwip.nextBlock + 1), listed := true } }

theorem listens (hb : w.lwip.blocks s = some { state := .other }) :
    (do
      stack (tcpArg s true)
      stack (tcpAccept s true) : ServerSocket.M Unit) w = ((), setBlock s (some listener) w) := by
  unfold tcpArg tcpAccept
  refine (Touched.start hb).step fun t ht => ?_
  rw [run_stack, update_eq _ ht.block, ht]
  simp only [Function.update_idem]
  rfl

theorem construct_eq (w : ServerSocket.World) :
    construct env w =
      if env.tcpNew (w.lwip.count .tcpNew) then
        if env.tcpBind (w.lwip.count .tcpBind) = .ok then
          if env.tcpListen (w.lwip.count .tcpListen) then ((), listening w) else ((), unlistened w)
        else ((), unbound w)
      else ((), { w with lwip := counted .tcpNew w.lwip, own := { w.own with server := none } }) := by
  have hnew : (created w).lwip.blocks w.lwip.nextBlock = some {} := Function.update_self ..
  have hbound : (counted .tcpBind (created w).lwip).blocks w.lwip.nextBlock = some {} := hnew
  have hbind : (created w).lwip.count .tcpBind = w.lwip.count .tcpBind := rfl
  have hlisten : (counted .tcpBind (created w).lwip).count .tcpListen = w.lwip.count .tcpListen := rfl
  rw [construct, run_stack_bind, tcpNew_eq]
  split
  · rw [run_modify_bind]
    change (stack (use w.lwip.nextBlock) >>= _) (created w) = _
    rw [run_stack_bind, use_eq hnew, run_stack_bind, tcpBind_eq env hnew, hbind, run_ite]
    by_cases hok : env.tcpBind (w.lwip.count .tcpBind) = .ok
    · rw [if_pos hok, if_pos hok, run_stack_bind, tcpListen_eq env hbound, hlisten]
      split
      · rw [run_modify_bind]
        dsimp only
        rw [run_modify_bind]
        exact listens (Function.update_self ..)
      · rfl
    · rw [if_neg hok, if_neg hok, run_bind, tcpAbort_eq]
      · rfl
      · exact hnew
      · rfl
  · rfl

theorem initial_fresh : Fresh initial := fun _ _ => ⟨rfl, rfl, List.not_mem_nil⟩

theorem initial_packets : Packets [] initial := ⟨rfl, .empty 0⟩

theorem listening_owned : Owned [] (listening initial) := by
  have hblocks : (listening initial).lwip.blocks = Function.update (fun _ => none) 1 (some listener) := by
    change Function.update (Function.update (Function.update (Function.update (fun _ => none) 0 (some {}))
      0 none) 1 (some { state := .other })) 1 (some listener) = _
    rw [Function.update_idem, Function.update_idem, Function.update_eq_self]
  refine ⟨⟨rfl, initial_packets.owned⟩, fun _ _ => ⟨rfl, rfl, List.not_mem_nil⟩, .listening 1 listener ?_⟩
  exact ⟨⟨hblocks, by decide, List.not_mem_nil⟩, ⟨rfl, rfl, rfl, rfl, rfl⟩, rfl, rfl, rfl, rfl, rfl⟩

theorem unlistened_owned : Owned [] (unlistened initial) := by
  refine ⟨⟨rfl, initial_packets.owned⟩, fun _ _ => ⟨rfl, rfl, List.not_mem_nil⟩,
    .off ⟨rfl, rfl, .inl rfl, rfl, rfl, fun p b hb => ?_⟩⟩
  change Function.update (fun _ => none) 0 (some {}) p = some b at hb
  by_cases hp : p = 0
  · rw [hp, Function.update_self] at hb
    exact (Option.some.inj hb).symm
  · rw [Function.update_of_ne hp] at hb
    cases hb

theorem unbound_owned : Owned [] (unbound initial) := by
  refine ⟨⟨rfl, initial_packets.owned⟩, fun p hp => ⟨rfl, rfl, fun hmem => ?_⟩,
    .off ⟨rfl, rfl, .inl rfl, rfl, rfl, fun p b hb => ?_⟩⟩
  · have haborted : p = 0 := List.mem_singleton.mp hmem
    have hbound : 1 ≤ p := hp
    omega
  · change Function.update (Function.update (fun _ => none) 0 (some {})) 0 none p = some b at hb
    rw [Function.update_idem, Function.update_eq_self] at hb
    cases hb

theorem start_owned : Owned [] (start env) := by
  rw [start, construct_eq]
  split
  · split
    · split
      · exact listening_owned
      · exact unlistened_owned
    · exact unbound_owned
  · exact ⟨⟨rfl, initial_packets.owned⟩, initial_fresh, .off ⟨rfl, rfl, .inl rfl, rfl, rfl, nofun⟩⟩

/-! ## Accepting -/

/-- The block of a connection that is accepted. -/
def accepted : Block :=
  { state := .other, arg := true, recv := true, sent := true, err := some .error, poll := some .poll }

/-- The new block is not the listener's. -/
theorem Listening.ne_next (hs : Listening s b w) : w.lwip.nextBlock ≠ s := Nat.ne_of_gt hs.bound

variable (env) in
/-- A connection that comes with an error is aborted. -/
theorem accept_error (h : Owned [] w) (hs : Listening s b w) (herror : error ≠ .ok) :
    let r := acceptCallback env b.arg (some w.lwip.nextBlock) error (incoming b w)
    r.1 = error ∧ Owned [] r.2 ∧ w.lwip.nextBlock ∈ r.2.lwip.aborted := by
  let t : ServerSocket.World := { incoming b w with lwip := abortBlock w.lwip.nextBlock (incoming b w).lwip }
  have heq : acceptCallback env b.arg (some w.lwip.nextBlock) error (incoming b w) = (error, t) := by
    rw [acceptCallback]
    dsimp only
    rw [run_ite, if_pos herror, run_bind, tcpAbort_eq]
    · rfl
    · exact Function.update_self ..
    · rfl
  have hmem : ∀ q, q ∈ t.lwip.aborted ↔ q ∈ w.lwip.aborted ∨ q = w.lwip.nextBlock := fun q =>
    mem_abortBlock _ q
  have hblocks : t.lwip.blocks = w.lwip.blocks := by
    change Function.update (Function.update w.lwip.blocks _ _) _ none = _
    rw [Function.update_idem, Function.update_eq_self_iff, hs.blocks,
      Function.update_of_ne (Listening.ne_next hs)]
  have hfresh : Fresh t := by
    intro q hq
    have hq' : w.lwip.nextBlock + 1 ≤ q := hq
    obtain ⟨hwritten, htaken, haborted⟩ := h.fresh q (by omega)
    refine ⟨hwritten, htaken, fun hnew => ?_⟩
    rcases (hmem q).mp hnew with hold | rfl
    · exact haborted hold
    · omega
  have hkept : s ∉ t.lwip.aborted := fun hnew =>
    ((hmem s).mp hnew).elim hs.notAborted (Listening.ne_next hs).symm
  have hlistening : Listening s b t :=
    ⟨⟨hblocks.trans hs.blocks, Nat.lt_succ_of_lt hs.bound, hkept⟩, hs.callbacks, hs.block, hs.server,
      hs.state, hs.tx, hs.rx⟩
  dsimp only
  rw [heq]
  exact ⟨rfl, ⟨⟨h.packets.misused, h.packets.owned⟩, hfresh, .listening s b hlistening⟩,
    (hmem _).mpr (.inr rfl)⟩

/-- With the callbacks of the new block registered. -/
def registered (b : Block) (w : ServerSocket.World) : ServerSocket.World :=
  setBlock w.lwip.nextBlock (some accepted)
    { incoming b w with state := .accepted, block := some w.lwip.nextBlock, rx := [] }

/-- After the listener was closed. -/
def unlistening (env : Env) (s : Nat) (b : Block) (w : ServerSocket.World) : ServerSocket.World :=
  { registered b w with
    lwip := closedBlock env s (registered b w).lwip
    own := { w.own with server := none } }

theorem registered_blocks (b : Block) (w : ServerSocket.World) :
    (registered b w).lwip.blocks = Function.update w.lwip.blocks w.lwip.nextBlock (some accepted) := by
  change Function.update (Function.update w.lwip.blocks _ _) _ _ = _
  rw [Function.update_idem]

theorem accept_eq (hs : Listening s b w) :
    acceptCallback env b.arg (some w.lwip.nextBlock) .ok (incoming b w) =
      (.ok, unlistening env s b w) := by
  have hlistener : (registered b w).lwip.blocks s = some b := by
    rw [registered_blocks b w, Function.update_of_ne (Listening.ne_next hs).symm, hs.live]
  have hclose := closeServerBlock_eq env hlistener hs.callbacks.err
  rw [acceptCallback, hs.callbacks.arg]
  simp only [ne_eq, not_true_eq_false, if_false, Bool.not_true, Bool.false_eq_true, false_and]
  rw [run_get_bind, run_modify_bind]
  unfold tcpArg tcpRecv tcpSent tcpErr tcpPoll
  refine (Touched.start (Function.update_self ..)).skip ((Touched.start (Function.update_self ..)).step
    fun _ h => h.step fun _ h => h.step fun _ h => h.step fun _ h => h.step fun t ht => ht.skip ?_)
  have hlast : t = registered b w := ht
  have hserver : (registered b w).own.server = some s := hs.server
  rw [hlast, run_get_bind, hserver]
  dsimp only
  rw [run_bind, hclose]
  rfl

variable (env) in
/-- A connection is accepted, and the listener closed. -/
theorem accept_ok (h : Owned [] w) (hs : Listening s b w) :
    Answers Owned w.lwip.nextBlock False
      (acceptCallback env b.arg (some w.lwip.nextBlock) .ok (incoming b w)) := by
  obtain ⟨hwritten, htaken, haborted⟩ := h.fresh w.lwip.nextBlock (Nat.le_refl _)
  have hblocks : (unlistening env s b w).lwip.blocks =
      Function.update (fun _ => none) w.lwip.nextBlock (some accepted) := by
    change Function.update (registered b w).lwip.blocks s none = _
    rw [registered_blocks b w, Function.update_comm (Listening.ne_next hs), hs.removed]
  have hmem : ∀ q, q ∈ (unlistening env s b w).lwip.aborted → q ∈ w.lwip.aborted ∨ q = s := fun q hq =>
    ((mem_closedBlock (registered b w).lwip q).mp hq).imp_right And.left
  have hkept : w.lwip.nextBlock ∉ (unlistening env s b w).lwip.aborted := fun hnew =>
    (hmem _ hnew).elim haborted (Listening.ne_next hs)
  have hfresh : Fresh (unlistening env s b w) := by
    intro q hq
    have hq' : w.lwip.nextBlock + 1 ≤ q := hq
    have hbound := hs.bound
    obtain ⟨hwritten, htaken, haborted⟩ := h.fresh q (by omega)
    refine ⟨hwritten, htaken, fun hnew => (hmem q hnew).elim haborted fun hqs => ?_⟩
    omega
  have hflow : stream w.lwip.nextBlock (unlistening env s b w) =
      ((unlistening env s b w).taken w.lwip.nextBlock).flatten := by
    change w.lwip.written _ ++ contents w.lwip.pbufs w.tx = (w.taken _).flatten
    rw [hwritten, htaken, hs.tx]
    rfl
  have howns := h.packets.owned
  rw [hs.rx] at howns
  have hactive : Active w.lwip.nextBlock accepted (unlistening env s b w) :=
    ⟨⟨hblocks, Nat.lt_succ_self _, hkept⟩, ⟨rfl, rfl, rfl, rfl⟩, rfl, rfl, .inl rfl, hflow, rfl⟩
  rw [accept_eq hs]
  exact ⟨rfl, ⟨⟨h.packets.misused, howns⟩, hfresh, .active _ _ hactive⟩, iff_of_false hkept id⟩

/-! ## Errors -/

/-- The error callback of a connection frees what is queued. -/
theorem error_active (h : Owned [] w) (hc : Active c b w) :
    Owned [] (errorCallback true (setBlock c none w)).2 := by
  let u : ServerSocket.World := { setBlock c none w with block := none, state := .closed }
  have hu : Packets [] u := ⟨h.packets.misused, h.packets.owned⟩
  obtain ⟨pbufs, hclear, howns⟩ := clearPacketQueues_spec hu
  have heq : errorCallback true (setBlock c none w) = Endpoint.clearPacketQueues u := rfl
  rw [heq, hclear]
  refine ⟨⟨h.packets.misused, howns⟩, h.fresh, .off ⟨rfl, hc.server, .inr rfl, rfl, rfl, fun q b' hq => ?_⟩⟩
  change Function.update w.lwip.blocks c none q = some b' at hq
  rw [hc.removed] at hq
  cases hq

/-! ## Steps -/

/-- The block that a callback is for. -/
def Event.subject (w : ServerSocket.World) : Event → Option Nat
  | .call _ => none
  | .accept _ arrives _ => if arrives then some w.lwip.nextBlock else none
  | .receive p _ _ | .poll p | .sent p | .error p => some p

/-- What the callback of an event returns hides that the block was aborted, or tells so where
it was not. -/
def Violates (env : Env) (handlers : Nat → List ServerSocket.Call) (w : ServerSocket.World) : Event → Prop
  | .call _ => False
  | .accept _ arrives error => if arrives then error ≠ .ok ∧ error ≠ .abrt else error = .abrt
  | .receive _ none _ => False
  | .receive _ (some data) error =>
    Reads ServerSocket.states error w ∧ Breaks env (aborts handlers) data w
  | .poll _ => Closes ServerSocket.states env w ∧ CloseFails env w
  | .sent _ => w.tx = [] ∧ w.state = .closing ∧ CloseFails env w
  | .error _ => False

/-- A step that keeps what a server owns, and whose answer meets the contract exactly when the
event does not violate it. -/
structure Kept (env : Env) (handlers : Nat → List ServerSocket.Call) (w : ServerSocket.World) (e : Event)
    (r : Option Err × ServerSocket.World) : Prop where
  owned : Owned [] r.2
  contract : ∀ error, r.1 = some error →
    (Contract (e.subject w) w error r.2 ↔ ¬ Violates env handlers w e)

theorem deliver_cases {e : Event} {r : Option Err × ServerSocket.World}
    (hd : deliver env handlers w e = some r) :
    (∃ call, e = .call call ∧ r = (none, (call.run env w).2)) ∨
      ∃ p b, e.block = some p ∧ w.lwip.blocks p = some b ∧ callback env handlers w b e = some r := by
  have hlive : ∀ p, e.block = some p → deliver env handlers w e =
      (match w.lwip.blocks p with | some b => callback env handlers w b e | none => none) →
      ∃ p b, e.block = some p ∧ w.lwip.blocks p = some b ∧ callback env handlers w b e = some r := by
    intro p hp heq
    rw [heq] at hd
    split at hd
    · next b hb => exact ⟨p, b, hp, hb, hd⟩
    · cases hd
  cases e with
  | call call => exact .inl ⟨call, rfl, (Option.some.inj hd).symm⟩
  | accept p arrives error => exact .inr (hlive p rfl rfl)
  | receive p packet error => exact .inr (hlive p rfl rfl)
  | poll p => exact .inr (hlive p rfl rfl)
  | sent p => exact .inr (hlive p rfl rfl)
  | error p => exact .inr (hlive p rfl rfl)

theorem Answers.kept {e : Event} {r : Err × ServerSocket.World} (hc : c ∉ w.lwip.aborted)
    (he : e.subject w = some c) (h : Answers Owned c (Violates env handlers w e) r) :
    Kept env handlers w e (some r.1, r.2) := by
  refine ⟨h.owned, fun error herror => ?_⟩
  cases herror
  rw [he]
  exact h.contract hc

/-- On a connection. -/
theorem active_kept {e : Event} {r : Option Err × ServerSocket.World} (h : Owned [] w)
    (hc : Active c b w) (he : e.block = some c) (hr : callback env handlers w b e = some r) :
    Kept env handlers w e r := by
  have K := connection env handlers
  cases e with
  | call call => cases he
  | accept p arrives error =>
    rw [callback, hc.callbacks.accept, if_neg Bool.false_ne_true] at hr
    cases hr
  | receive p packet error =>
    cases he
    simp only [callback, hc.callbacks.arg] at hr
    split at hr
    · cases packet with
      | none =>
        cases hr
        exact Answers.kept hc.notAborted rfl (K.receive_null h hc)
      | some data =>
        cases hr
        exact Answers.kept hc.notAborted rfl (K.receive_packet data h hc)
    · cases hr
  | poll p =>
    cases he
    simp only [callback, hc.callbacks.arg, hc.callbacks.poll] at hr
    cases hr
    exact Answers.kept hc.notAborted rfl (K.poll h hc)
  | sent p =>
    cases he
    rw [callback, hc.callbacks.arg] at hr
    split at hr
    · cases hr
      exact Answers.kept hc.notAborted rfl (K.sent h hc)
    · cases hr
  | error p =>
    cases he
    rw [callback, hc.callbacks.arg, hc.callbacks.err] at hr
    cases hr
    exact ⟨error_active h hc, nofun⟩

/-- While listening. -/
theorem listening_kept {e : Event} {r : Option Err × ServerSocket.World} (h : Owned [] w)
    (hs : Listening s b w) (he : e.block = some s) (hr : callback env handlers w b e = some r) :
    Kept env handlers w e r := by
  have hfresh := (h.fresh w.lwip.nextBlock (Nat.le_refl _)).2.2
  cases e with
  | call call => cases he
  | accept p arrives error =>
    rw [callback] at hr
    split at hr
    · cases arrives with
      | false =>
        cases hr
        refine ⟨h, fun error' herror => ?_⟩
        cases herror
        exact iff_false_right (not_aborted_none w w)
      | true =>
        cases hr
        by_cases hok : error = .ok
        · subst hok
          have hanswers := accept_ok env h hs
          exact Answers.kept hfresh rfl ⟨hanswers.ok, hanswers.owned,
            hanswers.aborted.trans (iff_of_false id fun hbad => hbad.1 rfl)⟩
        · have hanswers := accept_error env h hs hok
          obtain ⟨herror, howned, haborted⟩ := hanswers
          refine ⟨howned, fun error' herror' => ?_⟩
          have hsame : error = error' := herror.symm.trans (Option.some.inj herror')
          subst hsame
          refine (iff_true_right ((aborted_iff hfresh).mpr haborted)).trans ?_
          exact ⟨fun habort hbad => hbad.2 habort, fun hgood => by_contra fun habort => hgood ⟨hok, habort⟩⟩
    · cases hr
  | receive p packet error =>
    simp only [callback, hs.callbacks.recv, if_neg Bool.false_ne_true] at hr
    cases hr
  | poll p =>
    simp only [callback, hs.callbacks.poll] at hr
    cases hr
  | sent p =>
    rw [callback, hs.callbacks.sent, if_neg Bool.false_ne_true] at hr
    cases hr
  | error p =>
    rw [callback, hs.callbacks.err] at hr
    cases hr

/-- A block that was never opened has no callbacks. -/
theorem callback_unused {e : Event} (w : ServerSocket.World) : callback env handlers w {} e = none := by
  cases e <;> rfl

theorem Sole.only {p : Nat} {b' : Block} (h : Sole c b w) (hp : w.lwip.blocks p = some b') :
    p = c ∧ b' = b := by
  have hpc : p = c := h.bounds (by rw [hp]; nofun)
  subst hpc
  exact ⟨rfl, Option.some.inj (hp.symm.trans h.live)⟩

theorem deliver_kept {e : Event} {r : Option Err × ServerSocket.World} (h : Owned [] w)
    (hd : deliver env handlers w e = some r) : Kept env handlers w e r := by
  obtain ⟨call, rfl, rfl⟩ | ⟨p, b, he, hb, hr⟩ := deliver_cases hd
  · exact ⟨call_keeps call h, nofun⟩
  · cases h.phase with
    | off hoff =>
      rw [hoff.unused p b hb, callback_unused] at hr
      cases hr
    | listening s b' hs =>
      obtain ⟨rfl, rfl⟩ := Sole.only hs.toSole hb
      exact listening_kept h hs he hr
    | active c b' hc =>
      obtain ⟨rfl, rfl⟩ := Sole.only hc.toSole hb
      exact active_kept h hc he hr

/-! ## Runs -/

variable (env handlers) in
/-- A run of the constructed server. -/
abbrev Reaches (es : List Event) (w : ServerSocket.World) : Prop :=
  Base.Runs.Run (Step env handlers) (fun _ _ => True) (start env) es w

theorem reaches_owned {es : List Event} (hr : Reaches env handlers es w) : Owned [] w :=
  hr.invariant start_owned fun _ _ _ h _ ⟨_, hd⟩ => (deliver_kept h hd).owned

end StLib.Ethernet.ServerRuns
