import StLib.Ethernet.ClientCallbacks
import StLib.Ethernet.ServerRuns

/-! # Streams and ownership of the TCP sockets

In every run of a client or a server the stream of a connection is what `send_order` took for
it, and a client owns each `pbuf` once and uses no block that is gone. -/
namespace StLib.Ethernet.Integrity

open Base.Bytes (Byte)
open Lwip Endpoint Transmit

/-! ## Streams -/

/-- What was written to lwIP on a connection and what is still queued for it are the orders
for which `send_order` returned true, as they were encoded then and in the order of the calls. -/
theorem stream_integrity (env : Env) :
    (∀ handlers useKeepAlives es w c, ClientCallbacks.Reaches env handlers useKeepAlives es w →
      w.block = some c → stream c w = (w.taken c).flatten) ∧
    (∀ handlers es w c, ServerRuns.Reaches env handlers es w → w.block = some c →
      stream c w = (w.taken c).flatten) := by
  constructor
  · intro handlers useKeepAlives es w c hr hblock
    have howned := ClientCallbacks.reaches_owned hr
    obtain hnone | ⟨d, b, hd⟩ := ClientRuns.unconnected howned
    · cases hnone.symm.trans hblock
    · cases hd.block.symm.trans hblock
      exact hd.flow
  · intro handlers es w c hr hblock
    have howned := ServerRuns.reaches_owned hr
    obtain hnone | ⟨d, b, hd⟩ := Server.unconnected howned
    · cases hnone.symm.trans hblock
    · cases hd.block.symm.trans hblock
      exact hd.flow

/-- An environment in which calls succeed, apart from every `tcp_write` but the first. -/
def busyEnv : Env where
  tcpNew _ := true
  tcpBind _ := .ok
  tcpListen _ := true
  tcpConnect _ := .ok
  tcpWrite n := if n = 0 then .ok else .mem
  tcpSndbuf _ := 5840
  tcpClose _ := .ok
  pbufAlloc _ := true
  pbufTake _ := .ok
  pbufCopyPartial _ := 0

/-- An order of one byte. -/
def byteOrder (x : Byte) : Endpoint.Order where
  size := 1
  buffer := some [x]
  complete _ h := by cases h; rfl

/-- An order is written and the next one stays queued. -/
def twoOrders : List ClientRuns.Event :=
  [.connect 0 .ok, .call (.sendOrder (byteOrder 1#8)), .call (.sendOrder (byteOrder 2#8))]

theorem stream_integrity_queued :
    ∃ w, ClientCallbacks.Reaches busyEnv (fun _ => []) true twoOrders w ∧ w.lwip.written 0 = [1#8] ∧
      w.taken 0 = [[1#8], [2#8]] ∧ stream 0 w = (w.taken 0).flatten := by
  have hsome : (ClientCallbacks.trace busyEnv (fun _ => []) true twoOrders).isSome := rfl
  have hfacts : (ClientCallbacks.trace busyEnv (fun _ => []) true twoOrders).map
      (fun w => (w.block, w.lwip.written 0, w.taken 0)) = some (some 0, [1#8], [[1#8], [2#8]]) := rfl
  obtain ⟨w, hw⟩ := Option.isSome_iff_exists.mp hsome
  have hr := ClientCallbacks.reaches_of_trace hw
  rw [hw] at hfacts
  obtain ⟨hblock, hrest⟩ := Prod.ext_iff.mp (Option.some.inj hfacts)
  obtain ⟨hwritten, htaken⟩ := Prod.ext_iff.mp hrest
  exact ⟨w, hr, hwritten, htaken, (stream_integrity busyEnv).1 _ _ _ w 0 hr hblock⟩

/-! ## Ownership -/

/-- In every run of a client no block or `pbuf` that is gone is used or freed again, each `pbuf`
is queued once or was freed, none is left without a connection, and a connected client has a
block that is there. -/
theorem client_ownership {env : Env} {handlers : Nat → List Socket.Call} {useKeepAlives : Bool}
    {es : List ClientRuns.Event} {w : Socket.World}
    (hr : ClientCallbacks.Reaches env handlers useKeepAlives es w) :
    w.lwip.misused = false ∧ (w.tx ++ w.rx).Nodup ∧
      (∀ d, w.lwip.pbufs d ≠ none ↔ d ∈ w.tx ++ w.rx) ∧
      (w.block = none → ∀ d, w.lwip.pbufs d = none) ∧
      (w.state = .connected → ∃ c, w.block = some c ∧ w.lwip.blocks c ≠ none) := by
  have howned := ClientCallbacks.reaches_owned hr
  have howns := howned.packets.owned
  rw [List.append_nil] at howns
  have hnone : w.tx ++ w.rx = [] → ∀ d, w.lwip.pbufs d = none := fun hempty d => by
    by_contra hd
    have hmem := (howns.allocated d).mp hd
    rw [hempty] at hmem
    cases hmem
  refine ⟨howned.packets.misused, howns.nodup, howns.allocated, ?_⟩
  cases howned.phase with
  | closed hc =>
    refine ⟨fun _ => hnone (by rw [hc.tx, hc.rx, List.append_nil]), fun hstate => ?_⟩
    exact nomatch hstate.symm.trans hc.state
  | connecting c b hc =>
    refine ⟨fun _ => hnone (by rw [hc.tx, hc.rx, List.append_nil]), fun hstate => ?_⟩
    exact nomatch hstate.symm.trans hc.state
  | active c b hc =>
    refine ⟨fun hblock => absurd (hblock.symm.trans hc.block) nofun, fun _ => ⟨c, hc.block, ?_⟩⟩
    rw [hc.live]
    nofun

theorem client_ownership_queued :
    ∃ w, ClientCallbacks.Reaches busyEnv (fun _ => []) true twoOrders w ∧ w.tx = [0] ∧
      w.state = .connected ∧ w.lwip.misused = false ∧ (w.tx ++ w.rx).Nodup ∧
      (∀ d, w.lwip.pbufs d ≠ none ↔ d ∈ w.tx ++ w.rx) ∧
      (w.block = none → ∀ d, w.lwip.pbufs d = none) ∧
      (w.state = .connected → ∃ c, w.block = some c ∧ w.lwip.blocks c ≠ none) := by
  have hsome : (ClientCallbacks.trace busyEnv (fun _ => []) true twoOrders).isSome := rfl
  have hfacts : (ClientCallbacks.trace busyEnv (fun _ => []) true twoOrders).map
      (fun w => (w.tx, w.state)) = some ([0], .connected) := rfl
  obtain ⟨w, hw⟩ := Option.isSome_iff_exists.mp hsome
  have hr := ClientCallbacks.reaches_of_trace hw
  rw [hw] at hfacts
  obtain ⟨htx, hstate⟩ := Prod.ext_iff.mp (Option.some.inj hfacts)
  exact ⟨w, hr, htx, hstate, client_ownership hr⟩

end StLib.Ethernet.Integrity
