import StLib.Ethernet.ClientRuns

/-! # The callbacks of the TCP client

What each callback does to a client for the block that it owns: what it owns afterwards, and
whether the block was aborted. -/
namespace StLib.Ethernet.ClientCallbacks

open Base.Bytes (Byte)
open Base.OwnedHeap Lwip Endpoint Calls Transmit Callbacks Socket Client ClientRuns

variable {env : Env} {handlers : Nat → List Socket.Call} {c : Nat} {b : Block} {error : Err}
  {w : Socket.World}

/-! ## On a connection -/

/-- The order callbacks of a parse abort the block. -/
def aborts (handlers : Nat → List Socket.Call) (closeFails : Bool) (n : Nat) : Bool :=
  abortsBlock closeFails (handlers n)

variable (env handlers) in
/-- The connection of a client. -/
theorem connection : Connection Socket.states env (parse env handlers) (Socket.close env)
    (aborts handlers) Owned Active where
  packets h := h.packets
  block hc := hc.block
  live hc := hc.live
  rx hc := hc.rx
  notAborted hc := hc.notAborted
  transmits h hc ht := by
    obtain ⟨howned, hactive, -⟩ := hc.transmits h ht (fun p _ => congrFun ht.taken p)
      (by rw [ht.taken, List.append_nil])
    exact ⟨howned, hactive⟩
  closing h hc :=
    ⟨⟨h.packets.misused, h.packets.owned⟩, h.fresh, .active _ _
      ⟨⟨hc.blocks, hc.connection, hc.bound, hc.notAborted⟩, hc.callbacks, hc.block, .inr rfl, hc.flow,
        hc.calm, hc.rx⟩⟩
  closed h hc := ⟨(close_spec h).1, close_active_aborted h hc⟩
  parsed data h hc := ⟨parsed_owned data h, parsed_aborted data h hc⟩
  freed h := freed_owned h

/-! ## While connecting -/

theorem Connecting.with_own (own : Socket.Client) (h : Owned [] w) (hc : Connecting c b w)
    (hown : own.connection = some c) :
    Owned [] { w with own := own } ∧ Connecting c b { w with own := own } := by
  have hconnecting : Connecting c b { w with own := own } :=
    ⟨⟨hc.block, hc.state, hc.tx, hc.rx⟩, ⟨hc.blocks, hown, hc.bound, hc.notAborted⟩, hc.callbacks,
      hc.written, hc.taken⟩
  exact ⟨⟨⟨h.packets.misused, h.packets.owned⟩, h.fresh, .connecting c b hconnecting⟩, hconnecting⟩

theorem established_owned (h : Owned [] w) (hc : Connecting c b w) :
    Owned [] (setBlock c (some (established b)) w) ∧
      Connecting c (established b) (setBlock c (some (established b)) w) := by
  have hblocks : Function.update w.lwip.blocks c (some (established b)) =
      Function.update (fun _ => none) c (some (established b)) := by
    rw [hc.blocks, Function.update_idem]
  have hcallbacks : ConnectingBlock (established b) :=
    ⟨hc.callbacks.arg, hc.callbacks.err, hc.callbacks.poll, hc.callbacks.recv, hc.callbacks.sent⟩
  have hconnecting : Connecting c (established b) (setBlock c (some (established b)) w) :=
    ⟨⟨hc.block, hc.state, hc.tx, hc.rx⟩, ⟨hblocks, hc.connection, hc.bound, hc.notAborted⟩, hcallbacks,
      hc.written, hc.taken⟩
  exact ⟨⟨⟨h.packets.misused, h.packets.owned⟩, h.fresh, .connecting c _ hconnecting⟩, hconnecting⟩

variable (env) in
theorem connect_refused (h : Owned [] w) (hc : Connecting c b w) (herror : error ≠ .ok) :
    (connectCallback env true c error w).1 = error ∧ Owned [] (connectCallback env true c error w).2 ∧
      c ∉ (connectCallback env true c error w).2.lwip.aborted := by
  obtain ⟨howned, hconnecting⟩ := Connecting.with_own { w.own with pendingConnectionReset := true }
    h hc hc.connection
  rw [connectCallback]
  simp only [Bool.not_true, Bool.false_eq_true, if_false, if_pos herror]
  rw [run_modify_bind, ← hc.state]
  exact ⟨rfl, howned, hconnecting.notAborted⟩

/-- The block of a connection that was accepted. -/
def connectedCallbacks (b : Block) : Block :=
  { b with arg := true, recv := true, poll := some .poll, sent := true, err := some .error }

variable (env) in
theorem connect_accepted (h : Owned [] w) (hc : Connecting c b w) (hstate : b.state = .other) :
    Answers Owned c False (connectCallback env true c .ok w) := by
  let own : Socket.Client :=
    { w.own with connection := some c, pendingConnectionReset := false, connectPollTicks := 0#16 }
  let u : Socket.World := { w with block := some c, state := .connected, own := own }
  let t : Socket.World := setBlock c (some (connectedCallbacks b)) u
  have hblocks : t.lwip.blocks = Function.update (fun _ => none) c (some (connectedCallbacks b)) := by
    change Function.update w.lwip.blocks c _ = _
    rw [hc.blocks, Function.update_idem]
  have hflow : stream c t = (t.taken c).flatten := by
    change w.lwip.written c ++ contents w.lwip.pbufs w.tx = (w.taken c).flatten
    rw [hc.written, hc.taken, hc.tx]
    rfl
  have hactive : Active c (connectedCallbacks b) t :=
    ⟨⟨hblocks, rfl, hc.bound, hc.notAborted⟩, ⟨rfl, rfl, rfl, rfl, rfl, hstate⟩, rfl, .inl rfl, hflow, rfl,
      hc.rx⟩
  have howned : Owned [] t :=
    ⟨⟨h.packets.misused, h.packets.owned⟩, h.fresh, .active c _ hactive⟩
  suffices heq : connectCallback env true c .ok w = (.ok, t) by
    rw [heq]
    exact ⟨rfl, howned, iff_of_false hactive.notAborted id⟩
  have hlive : u.lwip.blocks c = some b := hc.live
  rw [connectCallback]
  simp only [Bool.not_true, Bool.false_eq_true, if_false, ne_eq, not_true_eq_false]
  rw [run_modify_bind]
  unfold tcpArg tcpRecv tcpPoll tcpSent tcpErr
  refine (Touched.start hlive).skip ((Touched.start hlive).step fun _ h => h.step fun _ h =>
    h.step fun _ h => h.step fun _ h => h.step fun v hv => ?_)
  have hlast : v = t := hv
  have htx : ¬ (t.tx ≠ []) := not_not.mpr hc.tx
  rw [hlast, run_get_bind, if_neg htx, run_ite]
  split
  · exact (Touched.start hactive.live).skip rfl
  · rfl

variable (env) in
/-- A poll while connecting returns `ERR_ABRT` when it has aborted the block to connect again. -/
theorem connectionPoll_spec (h : Owned [] w) (hc : Connecting c b w) :
    Owned [] (connectionPollCallback env true c w).2 ∧
      (c ∈ (connectionPollCallback env true c w).2.lwip.aborted ↔
        (connectionPollCallback env true c w).1 = .abrt) := by
  have hsame : ({ w with own := { w.own with connection := some c } } : Socket.World) = w := by
    rw [← hc.connection]
  have hwaits : ∀ {own : Socket.Client}, own.connection = some c →
      Owned [] { w with own := own } ∧ (c ∈ w.lwip.aborted ↔ Err.ok = .abrt) := fun hown =>
    ⟨(Connecting.with_own _ h hc hown).1, iff_of_false hc.notAborted nofun⟩
  rw [connectionPollCallback]
  simp only [Bool.not_true, Bool.false_eq_true, if_false]
  rw [run_modify_bind, hsame, run_get_bind, run_ite]
  split
  · obtain ⟨howned, hconnecting⟩ := Connecting.with_own
      { w.own with pendingConnectionReset := false } h hc hc.connection
    obtain ⟨howned', -, hlast⟩ := reset_spec env howned
    exact ⟨howned', iff_of_true (hlast c hc.connection).1 rfl⟩
  · rw [run_stack_bind, tcpState_eq hc.live, run_ite]
    split
    · exact hwaits hc.connection
    · exact hwaits hc.connection

/-! ## Errors -/

/-- The error callback of a connection frees what is queued. -/
theorem error_active (h : Owned [] w) (hc : Active c b w) :
    Owned [] (errorCallback true (setBlock c none w)).2 := by
  let own : Socket.Client :=
    { w.own with connection := none, pendingConnectionReset := true, connectPollTicks := 0#16 }
  let u : Socket.World := { setBlock c none w with block := none, state := .inactive, own := own }
  have hu : Packets [] u := ⟨h.packets.misused, h.packets.owned⟩
  obtain ⟨pbufs, hclear, howns⟩ := clearPacketQueues_spec hu
  have heq : errorCallback true (setBlock c none w) = Endpoint.clearPacketQueues u := rfl
  rw [heq, hclear]
  exact ⟨⟨h.packets.misused, howns⟩, h.fresh, .closed ⟨⟨rfl, rfl, rfl, rfl⟩, hc.removed, rfl⟩⟩

theorem error_connecting (h : Owned [] w) (hc : Connecting c b w) :
    Owned [] (connectionErrorCallback true (setBlock c none w)).2 :=
  ⟨⟨h.packets.misused, h.packets.owned⟩, h.fresh, .closed ⟨⟨rfl, rfl, hc.tx, hc.rx⟩, hc.removed, rfl⟩⟩

/-! ## Steps -/

/-- What the callback of an event returns hides that the block was aborted, or tells so where
it was not. -/
def Violates (env : Env) (handlers : Nat → List Socket.Call) (w : Socket.World) : Event → Prop
  | .call _ => False
  | .connect _ error => error = .abrt
  | .receive _ none _ => False
  | .receive _ (some data) error => Reads Socket.states error w ∧ Breaks env (aborts handlers) data w
  | .poll _ => Closes Socket.states env w ∧ CloseFails env w
  | .sent _ => w.tx = [] ∧ w.state = .closing ∧ CloseFails env w
  | .error _ => False

/-- A step that keeps what a client owns, and whose answer meets the contract exactly when the
event does not violate it. -/
structure Kept (env : Env) (handlers : Nat → List Socket.Call) (w : Socket.World) (e : Event)
    (r : Option Err × Socket.World) : Prop where
  owned : Owned [] r.2
  contract : ∀ error, r.1 = some error →
    (Contract e.block w error r.2 ↔ ¬ Violates env handlers w e)

theorem deliver_cases {e : Event} {r : Option Err × Socket.World}
    (hd : deliver env handlers w e = some r) :
    (∃ call, e = .call call ∧ r = (none, (call.run env w).2)) ∨
      ∃ p b, e.block = some p ∧ w.lwip.blocks p = some b ∧ callback env handlers w b e = some r := by
  have hlive : ∀ p, e.block = some p → (∀ call, e ≠ .call call) →
      ∃ p b, e.block = some p ∧ w.lwip.blocks p = some b ∧ callback env handlers w b e = some r := by
    intro p hp hcall
    unfold deliver at hd
    split at hd
    · exact absurd rfl (hcall _)
    · split at hd
      · next b hb =>
        rw [hp] at hb
        exact ⟨p, b, hp, hb, hd⟩
      · cases hd
  cases e with
  | call call => exact .inl ⟨call, rfl, (Option.some.inj hd).symm⟩
  | connect p error => exact .inr (hlive p rfl fun call he => by cases he)
  | receive p packet error => exact .inr (hlive p rfl fun call he => by cases he)
  | poll p => exact .inr (hlive p rfl fun call he => by cases he)
  | sent p => exact .inr (hlive p rfl fun call he => by cases he)
  | error p => exact .inr (hlive p rfl fun call he => by cases he)

theorem Answers.kept {e : Event} {r : Err × Socket.World} (hc : c ∉ w.lwip.aborted)
    (he : e.block = some c) (h : Answers Owned c (Violates env handlers w e) r) :
    Kept env handlers w e (some r.1, r.2) := by
  refine ⟨h.owned, fun error herror => ?_⟩
  cases herror
  rw [he]
  exact h.contract hc

/-- On a connection. -/
theorem active_kept {e : Event} {r : Option Err × Socket.World} (h : Owned [] w) (hc : Active c b w)
    (he : e.block = some c) (hr : callback env handlers w b e = some r) : Kept env handlers w e r := by
  have K := connection env handlers
  cases e with
  | call call => cases he
  | connect p error =>
    have hdone : ¬ (b.connected = true ∧ b.state = .synSent) := fun hsyn =>
      nomatch hsyn.2.symm.trans hc.callbacks.state
    simp only [callback, if_neg hdone] at hr
    cases hr
  | receive p packet error =>
    cases he
    simp only [callback, hc.callbacks.arg, hc.callbacks.recv, if_true] at hr
    cases packet with
    | none =>
      cases hr
      exact Answers.kept hc.notAborted rfl (K.receive_null h hc)
    | some data =>
      cases hr
      exact Answers.kept hc.notAborted rfl (K.receive_packet data h hc)
  | poll p =>
    cases he
    simp only [callback, hc.callbacks.arg, hc.callbacks.poll] at hr
    cases hr
    exact Answers.kept hc.notAborted rfl (K.poll h hc)
  | sent p =>
    cases he
    simp only [callback, hc.callbacks.arg, hc.callbacks.sent, if_true] at hr
    cases hr
    exact Answers.kept hc.notAborted rfl (K.sent h hc)
  | error p =>
    cases he
    simp only [callback, hc.callbacks.arg, hc.callbacks.err] at hr
    cases hr
    exact ⟨error_active h hc, nofun⟩

theorem not_closes (hc : Connecting c b w) : ¬ Closes Socket.states env w := by
  rintro (hclosing | ⟨hconnected, -⟩)
  · exact nomatch hclosing.symm.trans hc.state
  · exact nomatch hconnected.symm.trans hc.state

/-- While connecting. -/
theorem connecting_kept {e : Event} {r : Option Err × Socket.World} (h : Owned [] w)
    (hc : Connecting c b w) (he : e.block = some c) (hr : callback env handlers w b e = some r) :
    Kept env handlers w e r := by
  cases e with
  | call call => cases he
  | connect p error =>
    cases he
    simp only [callback, hc.callbacks.arg] at hr
    split at hr
    · cases hr
      obtain ⟨howned, hestablished⟩ := established_owned h hc
      by_cases hok : error = .ok
      · subst hok
        have hanswers := connect_accepted env howned hestablished rfl
        exact Answers.kept hc.notAborted rfl
          ⟨hanswers.ok, hanswers.owned, hanswers.aborted.trans (iff_of_false id nofun)⟩
      · have hrefused := connect_refused env howned hestablished hok
        obtain ⟨hsame, howned', haborted⟩ := hrefused
        refine ⟨howned', fun error' herror => ?_⟩
        cases hsame.symm.trans (Option.some.inj herror)
        exact iff_false_right (mt (aborted_iff hc.notAborted).mp haborted)
    · cases hr
  | receive p packet error =>
    simp only [callback, hc.callbacks.recv, if_neg Bool.false_ne_true] at hr
    cases hr
  | poll p =>
    cases he
    simp only [callback, hc.callbacks.arg, hc.callbacks.poll] at hr
    cases hr
    obtain ⟨howned, haborted⟩ := connectionPoll_spec env h hc
    refine ⟨howned, fun error herror => ?_⟩
    cases herror
    have hgood : ¬ Violates env handlers w (.poll c) := fun hbad => not_closes hc hbad.1
    exact iff_of_true (haborted.symm.trans (aborted_iff hc.notAborted).symm) hgood
  | sent p =>
    simp only [callback, hc.callbacks.sent, if_neg Bool.false_ne_true] at hr
    cases hr
  | error p =>
    cases he
    simp only [callback, hc.callbacks.arg, hc.callbacks.err] at hr
    cases hr
    exact ⟨error_connecting h hc, nofun⟩

theorem Only.only {p : Nat} {b' : Block} (h : Only c b w) (hp : w.lwip.blocks p = some b') :
    p = c ∧ b' = b := by
  have hpc : p = c := h.bounds (by rw [hp]; nofun)
  subst hpc
  exact ⟨rfl, Option.some.inj (hp.symm.trans h.live)⟩

theorem deliver_kept {e : Event} {r : Option Err × Socket.World} (h : Owned [] w)
    (hd : deliver env handlers w e = some r) : Kept env handlers w e r := by
  obtain ⟨call, rfl, rfl⟩ | ⟨p, b, he, hb, hr⟩ := deliver_cases hd
  · exact ⟨(call_keeps call h).1, nofun⟩
  · cases h.phase with
    | closed hc =>
      rw [hc.blocks] at hb
      cases hb
    | connecting c b' hc =>
      obtain ⟨rfl, rfl⟩ := Only.only hc.toOnly hb
      exact connecting_kept h hc he hr
    | active c b' hc =>
      obtain ⟨rfl, rfl⟩ := Only.only hc.toOnly hb
      exact active_kept h hc he hr

/-! ## Runs -/

variable (env handlers) in
/-- A run of the constructed client. -/
abbrev Reaches (useKeepAlives : Bool) (es : List Event) (w : Socket.World) : Prop :=
  Base.Runs.Run (Step env handlers) (fun _ _ => True) (start env useKeepAlives) es w

variable (env handlers) in
/-- Deliver the events in order. -/
def trace (useKeepAlives : Bool) (es : List Event) : Option Socket.World :=
  Base.Runs.exec (fun w e => (deliver env handlers w e).map Prod.snd) (start env useKeepAlives) es

theorem reaches_of_trace {useKeepAlives : Bool} {es : List Event}
    (h : trace env handlers useKeepAlives es = some w) : Reaches env handlers useKeepAlives es w :=
  (Base.Runs.run_of_exec (fun _ _ _ => trivial) h).widen fun t e u hs => by
    obtain ⟨r, hr, hu⟩ := Option.map_eq_some_iff.mp hs
    exact ⟨r.1, hu ▸ hr⟩

theorem start_owned (useKeepAlives : Bool) : Owned [] (start env useKeepAlives) :=
  construct_spec ⟨⟨rfl, rfl, rfl, rfl⟩, ⟨rfl, .empty 0⟩, fun _ _ => ⟨rfl, rfl, List.not_mem_nil⟩, rfl⟩

theorem reaches_owned {useKeepAlives : Bool} {es : List Event}
    (hr : Reaches env handlers useKeepAlives es w) : Owned [] w :=
  hr.invariant (start_owned useKeepAlives) fun _ _ _ h _ ⟨_, hd⟩ => (deliver_kept h hd).owned

end StLib.Ethernet.ClientCallbacks
