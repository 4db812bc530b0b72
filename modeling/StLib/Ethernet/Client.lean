import StLib.Ethernet.Transmit
import StLib.Ethernet.Socket

/-! # What the client owns

A client is closed, connecting with one block of its own, or active on it. Each public call
leaves it in one of the three, with nothing misused. -/
namespace StLib.Ethernet.Client

open Base.Bytes (Byte)
open Base.OwnedHeap Lwip Endpoint Calls Transmit Socket

variable {env : Env} {p c : Nat} {b : Block} {hand : List Nat} {w : Socket.World}

/-! ## Blocks that are given up -/

variable (env) in
theorem closeSocketBlock_eq (hb : w.lwip.blocks p = some b) :
    closeSocketBlock env p w = ((), { w with lwip := closedBlock env p w.lwip }) := by
  unfold closeSocketBlock tcpArg tcpSent tcpRecv tcpErr tcpPoll
  refine (Touched.start hb).step fun _ h => h.step fun _ h => h.step fun _ h => h.step fun _ h =>
    h.step fun t h => (closeOrAbort_eq env onError (pure ()) h.block rfl).trans ?_
  rw [run_pure, h]
  simp only [closedBlock, counted, Function.update_idem]

theorem abortConnectionBlock_eq (hb : w.lwip.blocks p = some b) :
    abortConnectionBlock p w = ((), { w with lwip := abortBlock p w.lwip }) := by
  unfold abortConnectionBlock tcpArg tcpErr tcpPoll
  refine (Touched.start hb).step fun _ h => h.step fun _ h => h.step fun t h => ?_
  rw [tcpAbort_eq _ h.block rfl, h]
  simp only [abortBlock, Function.update_idem]

/-! ## The states of a client -/

/-- Not connected. -/
structure Idle (w : Socket.World) : Prop where
  block : w.block = none
  state : w.state = .inactive
  tx : w.tx = []
  rx : w.rx = []

/-- The only block there is. -/
structure Only (c : Nat) (b : Block) (w : Socket.World) : Prop where
  blocks : w.lwip.blocks = Function.update (fun _ => none) c (some b)
  connection : w.own.connection = some c
  bound : c < w.lwip.nextBlock
  notAborted : c ∉ w.lwip.aborted

structure Closed (w : Socket.World) : Prop extends Idle w where
  blocks : w.lwip.blocks = fun _ => none
  connection : w.own.connection = none

/-- The callbacks that are registered while connecting. -/
structure ConnectingBlock (b : Block) : Prop where
  arg : b.arg = true
  err : b.err = some .connectionError
  poll : b.poll = some .connectionPoll
  recv : b.recv = false
  sent : b.sent = false

structure Connecting (c : Nat) (b : Block) (w : Socket.World) : Prop extends Idle w, Only c b w where
  callbacks : ConnectingBlock b
  written : w.lwip.written c = []
  taken : w.taken c = []

/-- The callbacks that are registered on a connection. -/
structure ActiveBlock (b : Block) : Prop where
  arg : b.arg = true
  err : b.err = some .error
  poll : b.poll = some .poll
  recv : b.recv = true
  sent : b.sent = true
  state : b.state = .other

structure Active (c : Nat) (b : Block) (w : Socket.World) : Prop extends Only c b w where
  callbacks : ActiveBlock b
  block : w.block = some c
  state : w.state = .connected ∨ w.state = .closing
  flow : stream c w = (w.taken c).flatten
  calm : w.own.pendingConnectionReset = false
  rx : w.rx = []

inductive Phase (w : Socket.World) : Prop
  | closed (h : Closed w)
  | connecting (c : Nat) (b : Block) (h : Connecting c b w)
  | active (c : Nat) (b : Block) (h : Active c b w)

/-- What a client keeps, with the packets of `hand` being processed. -/
structure Owned (hand : List Nat) (w : Socket.World) : Prop where
  packets : Packets hand w
  fresh : Fresh w
  phase : Phase w

theorem Only.live {w : Socket.World} (h : Only c b w) : w.lwip.blocks c = some b := by
  rw [h.blocks, Function.update_self]

theorem Only.removed {w : Socket.World} (h : Only c b w) :
    Function.update w.lwip.blocks c none = fun _ => none := by
  rw [h.blocks, Function.update_idem]
  exact Function.update_eq_self c (fun _ => none)

theorem Only.bounds {w : Socket.World} (h : Only c b w) (hp : w.lwip.blocks p ≠ none) : p = c := by
  by_contra hne
  rw [h.blocks, Function.update_of_ne hne] at hp
  exact hp rfl

/-! ## `close` and `reset` -/

/-- What `close` does once no block is left. -/
def forget : Socket.M Unit := do
  modify fun w => { w with block := none, own := { w.own with connection := none } }
  Endpoint.clearPacketQueues
  modify fun w =>
    { w with
      own := { w.own with connectPollTicks := 0#16, pendingConnectionReset := false }
      state := .inactive }

theorem close_closed (h : Closed w) : close env w = forget w := by
  rw [Socket.close, run_get_bind, h.block]
  dsimp only
  rw [run_get_bind, h.connection]
  rfl

theorem close_connecting (h : Connecting c b w) :
    close env w = forget { w with lwip := abortBlock c w.lwip } := by
  have hne : ¬ (w.block = some c) := by simp [h.block]
  have habort := abortConnectionBlock_eq h.live
  rw [Socket.close, run_get_bind]
  conv_lhs => rw [h.block]
  dsimp only
  rw [run_get_bind]
  conv_lhs => rw [h.connection]
  dsimp only
  rw [if_pos hne, run_bind, habort]
  rfl

theorem close_active (h : Active c b w) :
    close env w = forget { w with lwip := closedBlock env c w.lwip } := by
  have hclose := closeSocketBlock_eq env h.live
  rw [Socket.close, run_get_bind]
  conv_lhs => rw [h.block]
  dsimp only
  rw [run_bind, hclose, run_get_bind]
  conv_lhs => rw [h.connection]
  dsimp only
  rw [if_neg (not_not.mpr h.block)]
  rfl

/-- What happens to the blocks that were given up before: nothing. -/
structure Spares (w t : Socket.World) : Prop where
  nextBlock : w.lwip.nextBlock ≤ t.lwip.nextBlock
  aborted : ∀ p, p < w.lwip.nextBlock → w.own.connection ≠ some p →
    (p ∈ t.lwip.aborted ↔ p ∈ w.lwip.aborted)
  connection : ∀ p, p < w.lwip.nextBlock → w.own.connection ≠ some p → t.own.connection ≠ some p

theorem Spares.refl (w : Socket.World) : Spares w w := ⟨Nat.le_refl _, fun _ _ _ => Iff.rfl, fun _ _ h => h⟩

theorem Spares.trans {w t u : Socket.World} (h : Spares w t) (h' : Spares t u) : Spares w u where
  nextBlock := Nat.le_trans h.nextBlock h'.nextBlock
  aborted p hp hc :=
    (h'.aborted p (Nat.lt_of_lt_of_le hp h.nextBlock) (h.connection p hp hc)).trans (h.aborted p hp hc)
  connection p hp hc :=
    h'.connection p (Nat.lt_of_lt_of_le hp h.nextBlock) (h.connection p hp hc)

/-- The block that there was is gone. -/
structure GivenUp (w : Socket.World) (l : Stack) : Prop where
  blocks : l.blocks = fun _ => none
  nextBlock : l.nextBlock = w.lwip.nextBlock
  written : l.written = w.lwip.written
  misused : l.misused = w.lwip.misused
  pbufs : l.pbufs = w.lwip.pbufs
  nextPbuf : l.nextPbuf = w.lwip.nextPbuf
  aborted : ∀ p, w.own.connection ≠ some p → (p ∈ l.aborted ↔ p ∈ w.lwip.aborted)

theorem Only.aborts (h : Only c b w) : GivenUp w (abortBlock c w.lwip) := by
  refine ⟨h.removed, rfl, rfl, rfl, rfl, rfl, fun p hp => ?_⟩
  rw [mem_abortBlock, or_iff_left]
  rintro rfl
  exact hp h.connection

theorem Only.closes (env : Env) (h : Only c b w) : GivenUp w (closedBlock env c w.lwip) := by
  refine ⟨h.removed, rfl, rfl, rfl, rfl, rfl, fun p hp => ?_⟩
  rw [mem_closedBlock, or_iff_left]
  rintro ⟨rfl, -⟩
  exact hp h.connection

theorem Closed.givenUp (h : Closed w) : GivenUp w w.lwip :=
  ⟨h.blocks, rfl, rfl, rfl, rfl, rfl, fun _ _ => Iff.rfl⟩

theorem Owned.bound (h : Owned hand w) (hp : w.own.connection = some p) : p < w.lwip.nextBlock := by
  have hown : ∀ {c b}, Only c b w → p < w.lwip.nextBlock := by
    intro c b hc
    have hpc : c = p := Option.some.inj (hc.connection.symm.trans hp)
    exact hpc ▸ hc.bound
  cases h.phase with
  | closed hc =>
    rw [hc.connection] at hp
    cases hp
  | connecting c b hc => exact hown hc.toOnly
  | active c b hc => exact hown hc.toOnly

theorem GivenUp.fresh {l : Stack} (h : GivenUp w l) (ho : Owned hand w) : Fresh { w with lwip := l } := by
  intro p hp
  have hp' : w.lwip.nextBlock ≤ p := h.nextBlock ▸ hp
  obtain ⟨hwritten, htaken, haborted⟩ := ho.fresh p hp'
  have hne : w.own.connection ≠ some p := fun hc => absurd (ho.bound hc) (Nat.not_lt_of_le hp')
  exact ⟨(congrFun h.written p).trans hwritten, htaken, fun hmem => haborted ((h.aborted p hne).mp hmem)⟩

/-- After `forget`. -/
def forgotten (pbufs : Nat → Option (List Byte)) (w : Socket.World) : Socket.World where
  lwip := { w.lwip with pbufs := pbufs }
  state := .inactive
  block := none
  tx := []
  rx := []
  own := { useKeepAlives := w.own.useKeepAlives }
  taken := w.taken

theorem forget_eq (h : Packets hand w) :
    ∃ pbufs, forget w = ((), forgotten pbufs w) ∧ Owns pbufs w.lwip.nextPbuf hand := by
  have h' : Packets hand { w with block := none, own := { w.own with connection := none } } :=
    ⟨h.misused, h.owned⟩
  obtain ⟨pbufs, hclear, howns⟩ := clearPacketQueues_spec h'
  refine ⟨pbufs, ?_, howns⟩
  rw [forget, run_modify_bind, run_bind, hclear]
  rfl

/-- Once the block is given up the client is closed. -/
theorem GivenUp.forget {l : Stack} (h : GivenUp w l) (ho : Owned hand w) :
    Owned hand (forget { w with lwip := l }).2 ∧ Closed (forget { w with lwip := l }).2 ∧
      Spares w (forget { w with lwip := l }).2 ∧
      (forget { w with lwip := l }).2.lwip.aborted = l.aborted := by
  have hp : Packets hand { w with lwip := l } := by
    refine ⟨h.misused.trans ho.packets.misused, ?_⟩
    have howns := ho.packets.owned
    rw [← h.pbufs, ← h.nextPbuf] at howns
    exact howns
  obtain ⟨pbufs, hforget, howns⟩ := forget_eq hp
  have hclosed : Closed (forgotten pbufs { w with lwip := l }) :=
    ⟨⟨rfl, rfl, rfl, rfl⟩, h.blocks, rfl⟩
  rw [hforget]
  exact ⟨⟨⟨hp.misused, howns⟩, h.fresh ho, .closed hclosed⟩, hclosed,
    ⟨Nat.le_of_eq h.nextBlock.symm, fun p _ hne => h.aborted p hne, fun _ _ _ => nofun⟩, rfl⟩

/-- `close` leaves a closed client. -/
theorem close_spec (h : Owned hand w) :
    Owned hand (Socket.close env w).2 ∧ Closed (Socket.close env w).2 ∧ Spares w (Socket.close env w).2 := by
  cases h.phase with
  | closed hc =>
    rw [close_closed hc]
    obtain ⟨howned, hclosed, hspares, -⟩ := hc.givenUp.forget h
    exact ⟨howned, hclosed, hspares⟩
  | connecting c b hc =>
    rw [close_connecting hc]
    obtain ⟨howned, hclosed, hspares, -⟩ := hc.aborts.forget h
    exact ⟨howned, hclosed, hspares⟩
  | active c b hc =>
    rw [close_active hc]
    obtain ⟨howned, hclosed, hspares, -⟩ := (hc.closes env).forget h
    exact ⟨howned, hclosed, hspares⟩

/-- `close` aborts the block of a connection when `tcp_close` fails. -/
theorem close_active_aborted (h : Owned hand w) (hc : Active c b w) :
    c ∈ (Socket.close env w).2.lwip.aborted ↔ env.tcpClose (w.lwip.count .tcpClose) ≠ .ok := by
  obtain ⟨-, -, -, haborted⟩ := (hc.closes env).forget h
  rw [close_active hc, haborted, mem_closedBlock]
  simp [hc.notAborted]

/-! ## Opening a connection -/

/-- Without a block, whatever the client still points to. -/
structure Ready (hand : List Nat) (w : Socket.World) : Prop extends Idle w where
  packets : Packets hand w
  fresh : Fresh w
  blocks : w.lwip.blocks = fun _ => none

theorem Ready.owned (h : Ready hand w) (hc : w.own.connection = none) : Owned hand w :=
  ⟨h.packets, h.fresh, .closed ⟨h.toIdle, h.blocks, hc⟩⟩

/-- What happens to the blocks before when another is opened: nothing. -/
structure Opens (w t : Socket.World) : Prop where
  nextBlock : w.lwip.nextBlock ≤ t.lwip.nextBlock
  aborted : ∀ p, p < w.lwip.nextBlock → (p ∈ t.lwip.aborted ↔ p ∈ w.lwip.aborted)
  connection : ∀ p, p < w.lwip.nextBlock → t.own.connection ≠ some p

/-- After `tcp_new`. -/
def created (w : Socket.World) : Socket.World :=
  { w with
    lwip := { counted .tcpNew w.lwip with
      blocks := Function.update w.lwip.blocks w.lwip.nextBlock (some {})
      nextBlock := w.lwip.nextBlock + 1 }
    own := { w.own with connection := some w.lwip.nextBlock } }

/-- The block of a connection that was asked for with the answer `error`. -/
def startedBlock (error : Err) : Block :=
  connectedBlock error { arg := true, poll := some .connectionPoll, err := some .connectionError }

theorem startedBlock_callbacks (error : Err) : ConnectingBlock (startedBlock error) := by
  unfold startedBlock connectedBlock
  split <;> exact ⟨rfl, rfl, rfl, rfl, rfl⟩

theorem startConnection_eq (hb : w.lwip.blocks c = some {}) :
    startConnection env c w =
      (env.tcpConnect (w.lwip.count .tcpConnect), { w with
        lwip := { counted .tcpConnect w.lwip with
          blocks := Function.update w.lwip.blocks c
            (some (startedBlock (env.tcpConnect (w.lwip.count .tcpConnect)))) } }) := by
  unfold startConnection tcpArg tcpPoll tcpErr
  refine (Touched.start hb).skip ((Touched.start hb).step fun _ h => h.step fun _ h => h.step fun t h => ?_)
  have hcount : t.lwip.count .tcpConnect = w.lwip.count .tcpConnect := by rw [h]
  rw [run_stack, tcpConnect_eq env h.block rfl, hcount, h]
  simp only [counted, Function.update_idem]
  rfl

/-- After a bound block was asked to connect. -/
def started (env : Env) (own : Socket.Client) (w : Socket.World) : Socket.World :=
  { w with
    lwip := { counted .tcpConnect (counted .tcpBind (created w).lwip) with
      blocks := Function.update (created w).lwip.blocks w.lwip.nextBlock
        (some (startedBlock (env.tcpConnect (w.lwip.count .tcpConnect)))) }
    own := own }

/-- After a block that cannot be bound was aborted. -/
def unbound (own : Socket.Client) (w : Socket.World) : Socket.World :=
  { w with
    lwip := abortBlock w.lwip.nextBlock (counted .tcpBind (created w).lwip)
    own := own }

section Outcomes

variable {own : Socket.Client}

theorem Ready.uncreated (h : Ready hand w) (hown : own.connection = none) :
    Owned hand { w with lwip := counted .tcpNew w.lwip, own := own } ∧
      Opens w { w with lwip := counted .tcpNew w.lwip, own := own } := by
  refine ⟨?_, Nat.le_refl _, fun _ _ => Iff.rfl, fun p _ => ?_⟩
  · exact Ready.owned ⟨⟨h.block, h.state, h.tx, h.rx⟩, ⟨h.packets.misused, h.packets.owned⟩, h.fresh,
      h.blocks⟩ hown
  · change own.connection ≠ some p
    rw [hown]
    nofun

theorem Ready.unbound (h : Ready hand w) (hown : own.connection = none) :
    Owned hand (unbound own w) ∧ Opens w (unbound own w) := by
  have haborted : ∀ p, p ∈ (Client.unbound own w).lwip.aborted ↔
      p ∈ w.lwip.aborted ∨ p = w.lwip.nextBlock := fun p => mem_abortBlock _ p
  refine ⟨?_, Nat.le_succ _, fun p hp => ?_, fun p _ => ?_⟩
  · refine Ready.owned ⟨⟨h.block, h.state, h.tx, h.rx⟩, ⟨h.packets.misused, h.packets.owned⟩,
      fun p hp => ?_, ?_⟩ hown
    · have hp' : w.lwip.nextBlock + 1 ≤ p := hp
      obtain ⟨hwritten, htaken, hfresh⟩ := h.fresh p (by omega)
      refine ⟨hwritten, htaken, fun hmem => ?_⟩
      rcases (haborted p).mp hmem with hold | rfl
      · exact hfresh hold
      · omega
    · change Function.update (Function.update w.lwip.blocks _ _) _ none = _
      rw [Function.update_idem, h.blocks]
      exact Function.update_eq_self w.lwip.nextBlock (fun _ => none)
  · rw [haborted, or_iff_left]
    omega
  · change own.connection ≠ some p
    rw [hown]
    nofun

theorem Ready.started (h : Ready hand w) (hown : own.connection = some w.lwip.nextBlock) :
    Owned hand (started env own w) ∧ Opens w (started env own w) := by
  obtain ⟨hwritten, htaken, haborted⟩ := h.fresh w.lwip.nextBlock (Nat.le_refl _)
  refine ⟨⟨⟨h.packets.misused, h.packets.owned⟩, fun p hp => ?_, ?_⟩, Nat.le_succ _, fun _ _ => Iff.rfl,
    fun p hp => ?_⟩
  · have hp' : w.lwip.nextBlock + 1 ≤ p := hp
    exact h.fresh p (by omega)
  · have hblocks : (Client.started env own w).lwip.blocks = Function.update (fun _ => none) w.lwip.nextBlock
        (some (startedBlock (env.tcpConnect (w.lwip.count .tcpConnect)))) := by
      change Function.update (Function.update w.lwip.blocks _ _) _ _ = _
      rw [Function.update_idem, h.blocks]
    exact .connecting w.lwip.nextBlock _ ⟨⟨h.block, h.state, h.tx, h.rx⟩,
      ⟨hblocks, hown, Nat.lt_succ_self _, haborted⟩, startedBlock_callbacks _, hwritten, htaken⟩
  · change own.connection ≠ some p
    rw [hown]
    intro hpc
    have := Option.some.inj hpc
    omega

end Outcomes

/-- The calls of the constructor and of `reset` up to `tcp_bind`. -/
theorem opening_eq (none' : Socket.M Unit) (failed bound : Nat → Socket.M Unit) :
    (do
      let created ← stack (tcpNew env)
      modify fun w => { w with own := { w.own with connection := created } }
      match created with
      | none => none'
      | some c => do
        stack (use c)
        let bindError ← stack (tcpBind env c)
        if bindError ≠ .ok then
          tcpAbort onError c
          failed c
        else bound c : Socket.M Unit) w =
      if env.tcpNew (w.lwip.count .tcpNew) then
        if env.tcpBind (w.lwip.count .tcpBind) = .ok then
          bound w.lwip.nextBlock { created w with lwip := counted .tcpBind (created w).lwip }
        else failed w.lwip.nextBlock (unbound (created w).own w)
      else none' { w with lwip := counted .tcpNew w.lwip, own := { w.own with connection := none } } := by
  have hnew : (created w).lwip.blocks w.lwip.nextBlock = some {} := Function.update_self ..
  have hbind : (created w).lwip.count .tcpBind = w.lwip.count .tcpBind := rfl
  rw [run_stack_bind, tcpNew_eq]
  split
  · rw [run_modify_bind]
    change (stack (use w.lwip.nextBlock) >>= _) (created w) = _
    rw [run_stack_bind, use_eq hnew, run_stack_bind, tcpBind_eq env hnew, hbind, run_ite]
    by_cases hok : env.tcpBind (w.lwip.count .tcpBind) = .ok
    · rw [if_neg (not_not.mpr hok), if_pos hok]
    · rw [if_pos hok, if_neg hok, run_bind, tcpAbort_eq]
      · rfl
      · exact hnew
      · rfl
  · rfl

variable (env) in
theorem openConnection_spec (h : Ready hand w) :
    Owned hand (openConnection env w).2 ∧ Opens w (openConnection env w).2 := by
  have heq : openConnection env w = _ := opening_eq _ _ _
  rw [heq]
  split
  · split
    · rw [run_bind, startConnection_eq]
      · exact h.started rfl
      · exact Function.update_self ..
    · exact h.unbound rfl
  · exact h.uncreated rfl

theorem construct_spec (h : Ready hand w) : Owned hand (construct env w).2 := by
  have heq : construct env w = _ := opening_eq _ _ _
  rw [heq]
  split
  · split
    · rw [run_bind, startConnection_eq]
      · dsimp only
        rw [run_ite]
        split
        · exact (h.started rfl).1
        · exact (h.started rfl).1
      · exact Function.update_self ..
    · exact (h.unbound rfl).1
  · exact (h.uncreated rfl).1

/-- What `reset` has before it aborts the block. -/
def emptied (pbufs : Nat → Option (List Byte)) (w : Socket.World) : Socket.World :=
  { w with
    lwip := { w.lwip with pbufs := pbufs }
    state := .inactive
    block := none
    tx := []
    rx := []
    own := { w.own with connectPollTicks := 0#16 } }

variable (env) in
theorem reset_eq (h : Packets hand w) :
    ∃ pbufs, Owns pbufs w.lwip.nextPbuf hand ∧
      Socket.reset env w =
        match w.own.connection with
        | some c => (abortConnectionBlock c >>= fun _ => openConnection env) (emptied pbufs w)
        | none => openConnection env (emptied pbufs w) := by
  have h' : Packets hand { w with state := SocketState.inactive, block := none } :=
    ⟨h.misused, h.owned⟩
  obtain ⟨pbufs, hclear, howns⟩ := clearPacketQueues_spec h'
  refine ⟨pbufs, howns, ?_⟩
  rw [Socket.reset, run_modify_bind, run_bind, hclear, run_modify_bind, run_get_bind]
  change (match w.own.connection with | some c => _ | none => _ : Socket.M Unit) (emptied pbufs w) = _
  cases w.own.connection <;> rfl

theorem GivenUp.ready {l : Stack} {pbufs : Nat → Option (List Byte)} (h : GivenUp w l) (ho : Owned hand w)
    (howns : Owns pbufs w.lwip.nextPbuf hand) :
    Ready hand { emptied pbufs w with lwip := { l with pbufs := pbufs } } := by
  refine ⟨⟨rfl, rfl, rfl, rfl⟩, ⟨h.misused.trans ho.packets.misused, ?_⟩, h.fresh ho, h.blocks⟩
  rw [← h.nextPbuf] at howns
  exact howns

theorem GivenUp.spares {l : Stack} {pbufs : Nat → Option (List Byte)} {t : Socket.World}
    (h : GivenUp w l) (ht : Opens { emptied pbufs w with lwip := { l with pbufs := pbufs } } t) :
    Spares w t := by
  have hnext : ∀ {p}, p < w.lwip.nextBlock → p < l.nextBlock := fun hp => by rwa [h.nextBlock]
  exact ⟨h.nextBlock ▸ ht.nextBlock, fun p hp hne => (ht.aborted p (hnext hp)).trans (h.aborted p hne),
    fun p hp _ => ht.connection p (hnext hp)⟩

variable (env) in
/-- `reset` keeps what a client owns, and aborts its block. -/
theorem reset_spec (h : Owned hand w) :
    Owned hand (Socket.reset env w).2 ∧ Spares w (Socket.reset env w).2 ∧
      ∀ c, w.own.connection = some c →
        c ∈ (Socket.reset env w).2.lwip.aborted ∧ (Socket.reset env w).2.own.connection ≠ some c := by
  obtain ⟨pbufs, howns, hreset⟩ := reset_eq env h.packets
  have habort : ∀ {c b}, Only c b w → Owned hand (Socket.reset env w).2 ∧
      Spares w (Socket.reset env w).2 ∧ ∀ c, w.own.connection = some c →
        c ∈ (Socket.reset env w).2.lwip.aborted ∧ (Socket.reset env w).2.own.connection ≠ some c := by
    intro c b hc
    have hlive : (emptied pbufs w).lwip.blocks c = some b := hc.live
    obtain ⟨howned, hopens⟩ := openConnection_spec env (hc.aborts.ready h howns)
    rw [hreset, hc.connection]
    dsimp only
    rw [run_bind, abortConnectionBlock_eq hlive]
    refine ⟨howned, hc.aborts.spares hopens, fun d hd => ?_⟩
    cases hd
    exact ⟨(hopens.aborted c hc.bound).mpr ((mem_abortBlock w.lwip c).mpr (.inr rfl)),
      hopens.connection c hc.bound⟩
  cases h.phase with
  | closed hc =>
    obtain ⟨howned, hopens⟩ := openConnection_spec env (hc.givenUp.ready h howns)
    rw [hreset, hc.connection]
    exact ⟨howned, hc.givenUp.spares hopens, nofun⟩
  | connecting c b hc => exact habort hc.toOnly
  | active c b hc => exact habort hc.toOnly

/-! ## `reconnect` -/

theorem Active.reconnect (h : Active c b w) : Socket.reconnect env w = ((), w) := by
  rw [Socket.reconnect, run_get_bind, run_ite]
  split
  · rfl
  · rw [h.connection]
    dsimp only
    have hcalm : ¬ w.own.pendingConnectionReset = true := by rw [h.calm]; exact Bool.false_ne_true
    have hopen : b.state ≠ .closed := by rw [h.callbacks.state]; decide
    have hdone : ¬ b.state = .synSent := by rw [h.callbacks.state]; decide
    rw [run_ite, if_neg hcalm, run_stack_bind, tcpState_eq h.live, run_ite, if_neg hdone,
      run_stack_bind, tcpConnect_isConn env h.live hopen, run_ite, if_neg (by simp)]
    rfl

/-- A block that goes on connecting. -/
theorem Connecting.goesOn {b' : Block} {count : Fn → Nat} {own : Socket.Client} (h : Connecting c b w)
    (ho : Owned hand w) (hb : ConnectingBlock b') (hown : own.connection = some c) :
    let t : Socket.World := { w with
      lwip := { w.lwip with blocks := Function.update w.lwip.blocks c (some b'), count := count }
      own := own }
    Owned hand t ∧ Spares w t := by
  have hblocks : Function.update w.lwip.blocks c (some b') =
      Function.update (fun _ => none) c (some b') := by
    rw [h.blocks, Function.update_idem]
  refine ⟨⟨⟨ho.packets.misused, ho.packets.owned⟩, ho.fresh, .connecting c b' ?_⟩, Nat.le_refl _,
    fun _ _ _ => Iff.rfl, fun p _ hne => ?_⟩
  · exact ⟨⟨h.block, h.state, h.tx, h.rx⟩, ⟨hblocks, hown, h.bound, h.notAborted⟩, hb, h.written, h.taken⟩
  · change own.connection ≠ some p
    rwa [hown, ← h.connection]

theorem ConnectingBlock.connected (h : ConnectingBlock b) (error : Err) :
    ConnectingBlock (connectedBlock error b) := by
  unfold connectedBlock
  split
  · exact ⟨h.arg, h.err, h.poll, h.recv, h.sent⟩
  · exact h

theorem reconnect_spec (h : Owned hand w) :
    Owned hand (Socket.reconnect env w).2 ∧ Spares w (Socket.reconnect env w).2 := by
  cases h.phase with
  | closed hc =>
    have hne : w.state ≠ .connected := by rw [hc.state]; decide
    rw [Socket.reconnect, run_get_bind, run_ite, if_neg hne, hc.connection]
    obtain ⟨howned, hspares, -⟩ := reset_spec env h
    exact ⟨howned, hspares⟩
  | active c b hc =>
    rw [hc.reconnect]
    exact ⟨h, .refl w⟩
  | connecting c b hc =>
    have hne : w.state ≠ .connected := by rw [hc.state]; decide
    rw [Socket.reconnect, run_get_bind, run_ite, if_neg hne, hc.connection]
    dsimp only
    rw [run_ite]
    split
    · obtain ⟨howned, hspares, -⟩ := reset_spec env h
      exact ⟨howned, hspares⟩
    rw [run_stack_bind, tcpState_eq hc.live, run_ite]
    split
    · exact ⟨h, .refl w⟩
    rw [run_stack_bind]
    by_cases hopen : b.state = .closed
    · rw [tcpConnect_eq env hc.live hopen]
      dsimp only
      rw [run_ite]
      split
      · exact hc.goesOn h (hc.callbacks.connected _) hc.connection
      · exact hc.goesOn h (hc.callbacks.connected _) hc.connection
    · rw [tcpConnect_isConn env hc.live hopen, run_ite, if_neg (by simp)]
      exact ⟨h, .refl w⟩

/-! ## Sending -/

theorem Active.transmits {hand' : List Nat} {x : List Byte} {w' : Socket.World}
    {taken : Nat → List (List Byte)} (h : Active c b w) (ho : Owned hand' w) (ht : Transmits Socket.states hand c x w w')
    (htaken : ∀ p, p ≠ c → taken p = w.taken p)
    (hflow : (taken c).flatten = (w.taken c).flatten ++ x) :
    Owned hand { w' with taken := taken } ∧ Active c b { w' with taken := taken } ∧
      Spares w { w' with taken := taken } := by
  have hactive : Active c b { w' with taken := taken } := by
    refine ⟨⟨ht.blocks.trans h.blocks, ?_, ?_, ?_⟩, h.callbacks, ht.block.trans h.block, ?_, ?_, ?_,
      ht.rx.trans h.rx⟩
    · exact (congrArg Client.connection ht.own).trans h.connection
    · change c < w'.lwip.nextBlock
      rw [ht.nextBlock]
      exact h.bound
    · change c ∉ w'.lwip.aborted
      rw [ht.aborted]
      exact h.notAborted
    · rcases ht.state with hs | ⟨-, hs⟩
      · exact hs ▸ h.state
      · exact .inr hs
    · change stream c w' = _
      rw [ht.grows, hflow, h.flow]
    · exact (congrArg Client.pendingConnectionReset ht.own).trans h.calm
  refine ⟨⟨⟨ht.packets.misused, ht.packets.owned⟩, ht.fresh ho.fresh h.bound htaken, .active c b hactive⟩,
    hactive, Nat.le_of_eq ht.nextBlock.symm, fun p _ _ => ?_, fun p _ hne => ?_⟩
  · change p ∈ w'.lwip.aborted ↔ _
    rw [ht.aborted]
  · change w'.own.connection ≠ some p
    rwa [ht.own]

end StLib.Ethernet.Client
