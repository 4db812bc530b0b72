import StLib.Ethernet.Integrity

/-! # What a callback tells lwIP about its block

A callback returns `ERR_ABRT` when it has aborted the block that it was called for, and lwIP
goes on with the block after any other answer. Where the sockets keep to this, and where not. -/
namespace StLib.Ethernet.AbortContract

open Lwip Endpoint Transmit Callbacks

/-- From every reachable state a callback keeps the contract unless its event violates it: a
poll that closes the connection, or a sent acknowledgement on an empty queue, where `tcp_close`
fails; a packet whose order callbacks abort the block; an accepted block that comes with an
error. -/
theorem abort_contract (env : Env) :
    (∀ handlers useKeepAlives es w e error t,
      ClientCallbacks.Reaches env handlers useKeepAlives es w →
      ClientRuns.deliver env handlers w e = some (some error, t) →
      (Contract e.block w error t ↔ ¬ ClientCallbacks.Violates env handlers w e)) ∧
    (∀ handlers es w e error t, ServerRuns.Reaches env handlers es w →
      ServerRuns.deliver env handlers w e = some (some error, t) →
      (Contract (e.subject w) w error t ↔ ¬ ServerRuns.Violates env handlers w e)) := by
  constructor
  · intro handlers useKeepAlives es w e error t hr hd
    have hkept := ClientCallbacks.deliver_kept (ClientCallbacks.reaches_owned hr) hd
    exact hkept.contract error rfl
  · intro handlers es w e error t hr hd
    have hkept := ServerRuns.deliver_kept (ServerRuns.reaches_owned hr) hd
    exact hkept.contract error rfl

/-- An environment in which `tcp_close` fails. -/
def deafEnv : Env := { Integrity.busyEnv with tcpClose := fun _ => .mem }

/-- The peer closes the connection. -/
def peerCloses : List ClientRuns.Event := [.connect 0 .ok, .receive 0 none .ok]

/-- The poll that closes the connection aborts its block and returns `ERR_OK`. -/
theorem poll_hides_abort :
    ∃ w t, ClientCallbacks.Reaches deafEnv (fun _ => []) true peerCloses w ∧
      ClientRuns.deliver deafEnv (fun _ => []) w (.poll 0) = some (some .ok, t) ∧
      ¬ Contract (some 0) w .ok t := by
  have hsome : ((ClientCallbacks.trace deafEnv (fun _ => []) true peerCloses).bind fun w =>
      ClientRuns.deliver deafEnv (fun _ => []) w (.poll 0)).isSome := by decide +kernel
  have hfacts : ((ClientCallbacks.trace deafEnv (fun _ => []) true peerCloses).bind fun w =>
      (ClientRuns.deliver deafEnv (fun _ => []) w (.poll 0)).map fun r =>
        (r.1, w.lwip.aborted, r.2.lwip.aborted)) = some (some .ok, [], [0]) := by decide +kernel
  obtain ⟨⟨result, t⟩, hd⟩ := Option.isSome_iff_exists.mp hsome
  obtain ⟨w, hw, hd⟩ := Option.bind_eq_some_iff.mp hd
  rw [hw, Option.bind_some, hd] at hfacts
  obtain ⟨hresult, hrest⟩ := Prod.ext_iff.mp (Option.some.inj hfacts)
  obtain ⟨hbefore, hafter⟩ := Prod.ext_iff.mp hrest
  dsimp only at hresult hbefore hafter
  subst hresult
  refine ⟨w, t, ClientCallbacks.reaches_of_trace hw, hd, fun hcontract => ?_⟩
  have haborted : Aborted (some 0) w t := ⟨0, rfl, by rw [hbefore]; decide, by rw [hafter]; decide⟩
  exact nomatch hcontract.mpr haborted

theorem abort_contract_poll :
    ∃ w t, ClientCallbacks.Reaches deafEnv (fun _ => []) true Integrity.twoOrders w ∧
      ClientRuns.deliver deafEnv (fun _ => []) w (.poll 0) = some (some .ok, t) ∧
      (Contract (some 0) w .ok t ↔
        ¬ ClientCallbacks.Violates deafEnv (fun _ => []) w (.poll 0)) := by
  have hsome : ((ClientCallbacks.trace deafEnv (fun _ => []) true Integrity.twoOrders).bind fun w =>
      ClientRuns.deliver deafEnv (fun _ => []) w (.poll 0)).isSome := by decide +kernel
  have hfacts : ((ClientCallbacks.trace deafEnv (fun _ => []) true Integrity.twoOrders).bind fun w =>
      (ClientRuns.deliver deafEnv (fun _ => []) w (.poll 0)).map Prod.fst) = some (some .ok) := by
    decide +kernel
  obtain ⟨⟨result, t⟩, hd⟩ := Option.isSome_iff_exists.mp hsome
  obtain ⟨w, hw, hd⟩ := Option.bind_eq_some_iff.mp hd
  rw [hw, Option.bind_some, hd] at hfacts
  have hresult : result = some .ok := Option.some.inj hfacts
  subst hresult
  have hr := ClientCallbacks.reaches_of_trace hw
  exact ⟨w, t, hr, hd, (abort_contract deafEnv).1 _ _ _ _ (.poll 0) _ _ hr hd⟩

end StLib.Ethernet.AbortContract
