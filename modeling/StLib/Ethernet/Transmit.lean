import StLib.Base.OwnedHeap
import StLib.Ethernet.Calls

/-! # The transmit path keeps the stream

What was written to a block and what is still queued for it, in this order, is the stream of
the block. Flushing the queue leaves the stream; an order that is taken is appended to it. -/
namespace StLib.Ethernet.Transmit

open Base.Bytes (Byte)
open Base.OwnedHeap Lwip Endpoint Calls

variable {σ ρ : Type} {states : States σ} {env : Env} {p : Nat} {b : Block}
  {hand : List Nat} {w w' w'' : World σ ρ} {x y : List Byte}

/-- Nothing was misused, and the pbufs are those of the queues and those in `hand`. -/
structure Packets (hand : List Nat) (w : World σ ρ) : Prop where
  misused : w.lwip.misused = false
  owned : Owns w.lwip.pbufs w.lwip.nextPbuf (w.tx ++ w.rx ++ hand)

/-- Blocks that were not created yet are untouched. -/
def Fresh (w : World σ ρ) : Prop :=
  ∀ p, w.lwip.nextBlock ≤ p →
    w.lwip.written p = [] ∧ w.taken p = [] ∧ p ∉ w.lwip.aborted

def stream (p : Nat) (w : World σ ρ) : List Byte := w.lwip.written p ++ contents w.lwip.pbufs w.tx

/-- What transmitting over the block `p` leaves as it was. -/
structure Frame (p : Nat) (w w' : World σ ρ) : Prop where
  blocks : w'.lwip.blocks = w.lwip.blocks
  nextBlock : w'.lwip.nextBlock = w.lwip.nextBlock
  aborted : w'.lwip.aborted = w.lwip.aborted
  closes : w'.lwip.count .tcpClose = w.lwip.count .tcpClose
  written : ∀ q, q ≠ p → w'.lwip.written q = w.lwip.written q
  block : w'.block = w.block
  rx : w'.rx = w.rx
  own : w'.own = w.own
  taken : w'.taken = w.taken

namespace Frame

theorem refl (p : Nat) (w : World σ ρ) : Frame p w w :=
  ⟨rfl, rfl, rfl, rfl, fun _ _ => rfl, rfl, rfl, rfl, rfl⟩

theorem trans (h : Frame p w w') (h' : Frame p w' w'') : Frame p w w'' :=
  ⟨h'.blocks.trans h.blocks, h'.nextBlock.trans h.nextBlock, h'.aborted.trans h.aborted,
    h'.closes.trans h.closes, fun q hq => (h'.written q hq).trans (h.written q hq),
    h'.block.trans h.block, h'.rx.trans h.rx, h'.own.trans h.own, h'.taken.trans h.taken⟩

end Frame

/-- From `w` to `w'` the stream of `p` grows by `x`, and a connection may begin to close. -/
structure Transmits (states : States σ) (hand : List Nat) (p : Nat) (x : List Byte)
    (w w' : World σ ρ) : Prop extends Frame p w w' where
  packets : Packets hand w'
  grows : stream p w' = stream p w ++ x
  state : w'.state = w.state ∨ w.state = states.connected ∧ w'.state = states.closing

namespace Transmits

theorem refl (h : Packets hand w) : Transmits states hand p [] w w :=
  ⟨.refl p w, h, (List.append_nil _).symm, .inl rfl⟩

theorem trans {hand' : List Nat} (h : Transmits states hand p x w w')
    (h' : Transmits states hand' p y w' w'') : Transmits states hand' p (x ++ y) w w'' := by
  refine ⟨h.toFrame.trans h'.toFrame, h'.packets, ?_, ?_⟩
  · rw [h'.grows, h.grows, List.append_assoc]
  · rcases h'.state with hs' | ⟨hs', hs''⟩
    · rw [hs']
      exact h.state
    · rcases h.state with hs | ⟨hs, -⟩
      · exact .inr ⟨hs ▸ hs', hs''⟩
      · exact .inr ⟨hs, hs''⟩

/-- Transmitting over a block touches no other. -/
theorem fresh {taken : Nat → List (List Byte)} (h : Transmits states hand p x w w') (hw : Fresh w)
    (hp : p < w.lwip.nextBlock) (htaken : ∀ q, q ≠ p → taken q = w.taken q) :
    Fresh { w' with taken := taken } := by
  intro q hq
  have hq' : w.lwip.nextBlock ≤ q := h.nextBlock ▸ hq
  have hne : q ≠ p := Nat.ne_of_gt (Nat.lt_of_lt_of_le hp hq')
  obtain ⟨hwritten, htaken', haborted⟩ := hw q hq'
  exact ⟨(h.written q hne).trans hwritten, (htaken q hne).trans htaken', h.aborted ▸ haborted⟩

end Transmits

/-! ## Flushing the queue -/

/-- A write of a queued packet fails for good before the loop of `send` stops; `sndbuf` and
`write` count the answers there were. -/
def fatalWrite (env : Env) (sndbuf write : Nat) : List (List Byte) → Bool
  | [] => false
  | data :: rest =>
    if data.length > env.tcpSndbuf sndbuf then false
    else if env.tcpWrite write = .ok then fatalWrite env (sndbuf + 1) (write + 1) rest
    else env.tcpWrite write ≠ .mem

/-- What is queued, packet by packet. -/
def queued (w : World σ ρ) : List (List Byte) := w.tx.map fun b => (w.lwip.pbufs b).getD []

/-- After the first packet of the queue was written. -/
def sentOne (p c : Nat) (rest : List Nat) (data : List Byte) (w : World σ ρ) : World σ ρ :=
  { w with
    tx := rest
    lwip := { counted .tcpWrite (counted .tcpSndbuf w.lwip) with
      written := Function.update w.lwip.written p (w.lwip.written p ++ data)
      pbufs := Function.update w.lwip.pbufs c none } }

theorem flush_cons {c : Nat} {rest : List Nat} {data : List Byte} (hb : w.lwip.blocks p = some b)
    (hc : w.lwip.pbufs c = some data) :
    flush states env p (c :: rest) w =
      if data.length > env.tcpSndbuf (w.lwip.count .tcpSndbuf) then
        ((), { w with lwip := counted .tcpSndbuf w.lwip })
      else if env.tcpWrite (w.lwip.count .tcpWrite) = .ok then
        flush states env p rest (sentOne p c rest data w)
      else if env.tcpWrite (w.lwip.count .tcpWrite) = .mem then
        ((), { w with lwip := counted .tcpWrite (counted .tcpSndbuf w.lwip) })
      else
        ((), { w with
          lwip := counted .tcpWrite (counted .tcpSndbuf w.lwip), state := states.closing }) := by
  have hb' : (counted .tcpSndbuf w.lwip).blocks p = some b := hb
  have hwrite : (counted .tcpSndbuf w.lwip).count .tcpWrite = w.lwip.count .tcpWrite := rfl
  rw [flush, run_bind, run_stack, pbufPayload_eq hc, run_bind, run_stack, tcpSndbuf_eq env hb]
  by_cases hroom : data.length > env.tcpSndbuf (w.lwip.count .tcpSndbuf)
  · simp only [hroom, if_true, run_pure]
  · simp only [hroom, if_false, run_bind, run_stack, tcpWrite_eq env hb', hwrite]
    cases env.tcpWrite (w.lwip.count .tcpWrite) with
    | ok =>
      simp only [if_true, run_bind, run_modify, run_stack]
      rw [pbufFree_eq]
      · rfl
      · exact hc
    | mem => rfl
    | val => rfl
    | isConn => rfl
    | abrt => rfl
    | other => rfl

theorem Packets.notMem {c : Nat} {rest : List Nat} (h : Packets hand w) (htx : w.tx = c :: rest) :
    c ∉ rest := by
  have hnodup := h.owned.nodup
  rw [htx, List.cons_append, List.cons_append, List.nodup_cons] at hnodup
  exact fun hmem => hnodup.1 (List.mem_append_left _ (List.mem_append_left _ hmem))

theorem Packets.content {c : Nat} (h : Packets hand w) (hc : c ∈ w.tx) :
    ∃ data, w.lwip.pbufs c = some data :=
  h.owned.get (List.mem_append_left _ (List.mem_append_left _ hc))

/-- Writing the first packet moves its bytes from the queue to what was written. -/
theorem Transmits.sentOne {c : Nat} {rest : List Nat} {data : List Byte} (h : Packets hand w)
    (htx : w.tx = c :: rest) (hc : w.lwip.pbufs c = some data) :
    Transmits states hand p [] w (sentOne p c rest data w) := by
  refine ⟨⟨rfl, rfl, rfl, rfl, fun q hq => Function.update_of_ne hq .., rfl, rfl, rfl, rfl⟩, ⟨h.misused, ?_⟩,
    ?_, .inl rfl⟩
  · have hall := h.owned
    rw [htx] at hall
    exact hall.free
  · have hrest : contents (Function.update w.lwip.pbufs c none) rest = contents w.lwip.pbufs rest :=
      contents_update (h.notMem htx) none
    rw [stream, stream, htx, contents_cons hc, List.append_nil]
    change Function.update w.lwip.written p _ p ++ contents (Function.update w.lwip.pbufs c none) rest = _
    rw [Function.update_self, hrest, List.append_assoc]

/-- Calls that are only counted, after which a connection may begin to close. -/
theorem Transmits.asked {count : Fn → Nat} {state : σ} (h : Packets hand w)
    (hcloses : count .tcpClose = w.lwip.count .tcpClose)
    (hstate : state = w.state ∨ w.state = states.connected ∧ state = states.closing) :
    Transmits states hand p [] w { w with lwip := { w.lwip with count := count }, state := state } :=
  ⟨⟨rfl, rfl, rfl, hcloses, fun _ _ => rfl, rfl, rfl, rfl, rfl⟩, ⟨h.misused, h.owned⟩,
    (List.append_nil _).symm, hstate⟩

variable (states env) in
/-- The loop of `send`. -/
theorem flush_spec (hand : List Nat) : ∀ (bs : List Nat) (w : World σ ρ), w.tx = bs → Packets hand w →
    w.lwip.blocks p = some b → w.state = states.connected →
    Transmits states hand p [] w (flush states env p bs w).2 ∧
      (flush states env p bs w).2.state =
        if fatalWrite env (w.lwip.count .tcpSndbuf) (w.lwip.count .tcpWrite) (queued w) then
          states.closing
        else states.connected
  | [], w, htx, h, _, hstate => by
    have hqueued : queued w = [] := by rw [queued, htx]; rfl
    rw [hqueued]
    exact ⟨.refl h, hstate⟩
  | c :: rest, w, htx, h, hb, hstate => by
    obtain ⟨data, hc⟩ := h.content (htx ▸ List.mem_cons_self : c ∈ w.tx)
    have hqueued : queued w = data :: rest.map fun b => (w.lwip.pbufs b).getD [] := by
      rw [queued, htx, List.map_cons, hc]
      rfl
    have hkeep : queued (sentOne p c rest data w) = rest.map fun b => (w.lwip.pbufs b).getD [] := by
      refine List.map_congr_left fun d hd => ?_
      have hne : d ≠ c := fun h' => h.notMem htx (h' ▸ hd)
      exact congrArg (fun x => Option.getD x []) (Function.update_of_ne hne ..)
    rw [flush_cons hb hc, hqueued, fatalWrite]
    split
    · exact ⟨.asked h rfl (.inl rfl), hstate⟩
    · split
      · have hone : Transmits states hand p [] w (sentOne p c rest data w) := .sentOne h htx hc
        obtain ⟨hrest, hfatal⟩ := flush_spec hand rest _ rfl hone.packets hb hstate
        rw [hkeep] at hfatal
        exact ⟨hone.trans hrest, hfatal⟩
      · split
        · rename_i hmem
          refine ⟨.asked h rfl (.inl rfl), ?_⟩
          simp [hmem, hstate]
        · rename_i hmem
          refine ⟨.asked h rfl (.inr ⟨hstate, rfl⟩), ?_⟩
          simp [hmem]

/-! ## Packets that come and go -/

/-- After a `pbuf` was allocated. -/
def allocated (size : Nat) (w : World σ ρ) : World σ ρ :=
  { w with
    lwip := { counted .pbufAlloc w.lwip with
      pbufs := Function.update w.lwip.pbufs w.lwip.nextPbuf (some (List.replicate size 0))
      nextPbuf := w.lwip.nextPbuf + 1 } }

/-- After a `pbuf` was freed. -/
def freed (c : Nat) (w : World σ ρ) : World σ ρ :=
  { w with lwip := { w.lwip with pbufs := Function.update w.lwip.pbufs c none } }

/-- After a `pbuf` was filled and queued. -/
def pushed (c : Nat) (data : List Byte) (w : World σ ρ) : World σ ρ :=
  { w with
    tx := w.tx ++ [c]
    lwip := { counted .pbufTake w.lwip with
      pbufs := Function.update w.lwip.pbufs c (some data) } }

theorem Packets.hand_notMem {c : Nat} (h : Packets (c :: hand) w) : c ∉ w.tx := by
  have hnodup := (h.owned.perm List.perm_middle).nodup
  exact fun hmem => (List.nodup_cons.mp hnodup).1
    (List.mem_append_left _ (List.mem_append_left _ hmem))

theorem Transmits.allocated (size : Nat) (h : Packets hand w) :
    Transmits states (w.lwip.nextPbuf :: hand) p [] w (allocated size w) := by
  have hnew : w.lwip.nextPbuf ∉ w.tx := fun hmem =>
    h.owned.next_notMem (List.mem_append_left _ (List.mem_append_left _ hmem))
  refine ⟨⟨rfl, rfl, rfl, rfl, fun _ _ => rfl, rfl, rfl, rfl, rfl⟩, ⟨h.misused, ?_⟩, ?_, .inl rfl⟩
  · exact (h.owned.alloc _).perm List.perm_middle.symm
  · rw [List.append_nil]
    exact congrArg (w.lwip.written p ++ ·) (contents_update hnew _)

theorem Transmits.freed {c : Nat} (h : Packets (c :: hand) w) :
    Transmits states hand p [] w (freed c w) := by
  refine ⟨⟨rfl, rfl, rfl, rfl, fun _ _ => rfl, rfl, rfl, rfl, rfl⟩, ⟨h.misused, ?_⟩, ?_, .inl rfl⟩
  · exact (h.owned.perm List.perm_middle).free
  · rw [List.append_nil]
    exact congrArg (w.lwip.written p ++ ·) (contents_update h.hand_notMem _)

theorem Transmits.pushed {c : Nat} (data : List Byte) (h : Packets (c :: hand) w) :
    Transmits states hand p data w (pushed c data w) := by
  refine ⟨⟨rfl, rfl, rfl, rfl, fun _ _ => rfl, rfl, rfl, rfl, rfl⟩, ⟨h.misused, ?_⟩, ?_, .inl rfl⟩
  · refine (h.owned.write (by simp) data).perm ?_
    change List.Perm _ ((w.tx ++ [c]) ++ w.rx ++ hand)
    rw [List.append_assoc, List.append_assoc, List.append_assoc]
    exact List.perm_middle.append_left w.tx
  · change w.lwip.written p ++ contents (Function.update w.lwip.pbufs c (some data)) (w.tx ++ [c]) = _
    rw [contents_append, contents_update h.hand_notMem, contents_cons (Function.update_self ..), stream,
      List.append_assoc]
    simp [contents]

/-- Freeing all of a list leaves the rest. -/
theorem freeAll_spec : ∀ (bs : List Nat) {l : Stack} {rest : List Nat},
    Owns l.pbufs l.nextPbuf (bs ++ rest) →
    ∃ pbufs, freeAll bs l = ((), { l with pbufs := pbufs }) ∧ Owns pbufs l.nextPbuf rest
  | [], l, _, h => ⟨l.pbufs, rfl, h⟩
  | c :: bs, l, rest, h => by
    obtain ⟨data, hc⟩ := h.get (List.mem_cons_self : c ∈ c :: (bs ++ rest))
    have hfree : Owns (Function.update l.pbufs c none) l.nextPbuf (bs ++ rest) := h.free
    obtain ⟨pbufs, hrest, howns⟩ :=
      freeAll_spec bs (l := { l with pbufs := Function.update l.pbufs c none }) hfree
    refine ⟨pbufs, ?_, howns⟩
    rw [freeAll, run_bind, pbufFree_eq hc]
    exact hrest

/-- `clear_packet_queues` frees all that is queued. -/
theorem clearPacketQueues_spec (h : Packets hand w) :
    ∃ pbufs, clearPacketQueues w =
        ((), { w with tx := [], rx := [], lwip := { w.lwip with pbufs := pbufs } }) ∧
      Owns pbufs w.lwip.nextPbuf hand := by
  have hall := h.owned
  rw [List.append_assoc] at hall
  obtain ⟨pbufs, htx, hrest⟩ := freeAll_spec w.tx hall
  obtain ⟨pbufs', hrx, hhand⟩ := freeAll_spec w.rx (l := { w.lwip with pbufs := pbufs }) hrest
  refine ⟨pbufs', ?_, hhand⟩
  rw [clearPacketQueues, run_get_bind, run_stack_bind, htx, run_stack_bind]
  dsimp only
  rw [hrx]
  rfl

/-! ## `send` -/

variable [DecidableEq σ]

theorem send_none (h : w.block = none) : send states env w = ((), w) := by
  rw [send, run_get_bind, h]
  rfl

theorem send_idle (h : w.state ≠ states.connected) : send states env w = ((), w) := by
  rw [send, run_get_bind]
  cases w.block with
  | none => rfl
  | some p =>
    dsimp only
    rw [if_pos h]
    rfl

theorem send_connected (hp : w.block = some p) (hstate : w.state = states.connected) :
    send states env w = (flush states env p w.tx >>= fun _ => stack (use p)) w := by
  rw [send, run_get_bind, hp]
  dsimp only
  rw [if_neg (not_not.mpr hstate)]

variable (states env) in
/-- `send` flushes what it can. -/
theorem send_spec (h : Packets hand w) (hp : w.block = some p) (hb : w.lwip.blocks p = some b) :
    Transmits states hand p [] w (send states env w).2 ∧
      (send states env w).2.state =
        if w.state = states.connected ∧
            fatalWrite env (w.lwip.count .tcpSndbuf) (w.lwip.count .tcpWrite) (queued w) = true then
          states.closing
        else w.state := by
  by_cases hstate : w.state = states.connected
  · obtain ⟨hflush, hfatal⟩ := flush_spec states env hand w.tx w rfl h hb hstate
    have hlive : (flush states env p w.tx w).2.lwip.blocks p = some b := by rw [hflush.blocks, hb]
    rw [send_connected hp hstate, run_bind, run_stack, use_eq hlive]
    refine ⟨hflush, hfatal.trans ?_⟩
    simp only [hstate, true_and]
  · rw [send_idle hstate, if_neg fun hc => hstate hc.1]
    exact ⟨.refl h, rfl⟩

/-! ## Orders -/

/-- After an order was written without being queued. -/
def sentDirectly (p : Nat) (data : List Byte) (w : World σ ρ) : World σ ρ :=
  { w with
    lwip := { counted .tcpWrite (counted .tcpSndbuf w.lwip) with
      written := Function.update w.lwip.written p (w.lwip.written p ++ data) } }

theorem trySendImmediately_eq (order : Order) (hp : w.block = some p) (hb : w.lwip.blocks p = some b) :
    trySendImmediately states env order w =
      if w.state ≠ states.connected ∨ w.tx ≠ [] then (false, w)
      else if order.size = 0 ∨ order.size > tcpSndBuf then (false, w)
      else if order.size > env.tcpSndbuf (w.lwip.count .tcpSndbuf) then
        (false, { w with lwip := counted .tcpSndbuf w.lwip })
      else
        match order.buffer with
        | none => (false, { w with lwip := counted .tcpSndbuf w.lwip })
        | some data =>
          if env.tcpWrite (w.lwip.count .tcpWrite) = .ok then (true, sentDirectly p data w)
          else if env.tcpWrite (w.lwip.count .tcpWrite) = .mem then
            (false, { w with lwip := counted .tcpWrite (counted .tcpSndbuf w.lwip) })
          else
            (false, { w with
              lwip := counted .tcpWrite (counted .tcpSndbuf w.lwip), state := states.closing }) := by
  have hb' : (counted .tcpSndbuf w.lwip).blocks p = some b := hb
  have hwrite : (counted .tcpSndbuf w.lwip).count .tcpWrite = w.lwip.count .tcpWrite := rfl
  rw [trySendImmediately, run_get_bind]
  conv_lhs => rw [hp]
  dsimp only
  rw [run_ite]
  refine if_congr Iff.rfl rfl ?_
  rw [run_ite]
  refine if_congr Iff.rfl rfl ?_
  rw [run_stack_bind, tcpSndbuf_eq env hb, run_ite]
  refine if_congr Iff.rfl rfl ?_
  cases order.buffer with
  | none => rfl
  | some data =>
    dsimp only
    rw [run_stack_bind, tcpWrite_eq env hb', hwrite]
    cases env.tcpWrite (w.lwip.count .tcpWrite) with
    | ok =>
      dsimp only
      rw [run_stack_bind, use_eq]
      · rfl
      · exact hb
    | mem => rfl
    | val => rfl
    | isConn => rfl
    | abrt => rfl
    | other => rfl

variable (states env) in
theorem trySendImmediately_spec (order : Order) (h : Packets hand w) (hp : w.block = some p)
    (hb : w.lwip.blocks p = some b) :
    Transmits states hand p
      (if (trySendImmediately states env order w).1 then order.encoding else []) w
      (trySendImmediately states env order w).2 := by
  rw [trySendImmediately_eq order hp hb]
  split
  · exact .refl h
  · rename_i hidle
    have hstate : w.state = states.connected := not_not.mp (not_or.mp hidle).1
    have htx : w.tx = [] := not_not.mp (not_or.mp hidle).2
    split
    · exact .refl h
    · split
      · exact .asked h rfl (.inl rfl)
      · cases hdata : order.buffer with
        | none => exact .asked h rfl (.inl rfl)
        | some data =>
          dsimp only
          split
          · have hencoding : order.encoding = data := by rw [Order.encoding, hdata]; rfl
            refine ⟨⟨rfl, rfl, rfl, rfl, fun q hq => Function.update_of_ne hq .., rfl, rfl, rfl, rfl⟩,
              ⟨h.misused, h.owned⟩, ?_, .inl rfl⟩
            change Function.update w.lwip.written p _ p ++ contents w.lwip.pbufs w.tx = _
            rw [Function.update_self, htx, if_pos rfl, hencoding, stream, htx]
            simp [contents]
          · split
            · exact .asked h rfl (.inl rfl)
            · exact .asked h rfl (.inr ⟨hstate, rfl⟩)

theorem addOrderToQueue_eq (order : Order) :
    addOrderToQueue states env order w =
      if w.state ≠ states.connected ∨ w.block = none then (false, w)
      else if w.tx.length ≥ maxTxQueueDepth then (false, w)
      else if order.size = 0 ∨ order.size > tcpSndBuf then (false, w)
      else if env.pbufAlloc (w.lwip.count .pbufAlloc) then
        match order.buffer with
        | none => (false, freed w.lwip.nextPbuf (allocated order.size w))
        | some data =>
          if env.pbufTake (w.lwip.count .pbufTake) = .ok then
            (true, pushed w.lwip.nextPbuf data (allocated order.size w))
          else
            (false, freed w.lwip.nextPbuf { w with
              lwip := counted .pbufTake (allocated order.size w).lwip })
      else (false, { w with lwip := counted .pbufAlloc w.lwip }) := by
  have hnew : (allocated order.size w).lwip.pbufs w.lwip.nextPbuf = some (List.replicate order.size 0) :=
    Function.update_self ..
  have htake : (allocated order.size w).lwip.count .pbufTake = w.lwip.count .pbufTake := rfl
  rw [addOrderToQueue, run_get_bind, run_ite]
  refine if_congr Iff.rfl rfl ?_
  rw [run_ite]
  refine if_congr Iff.rfl rfl ?_
  rw [run_ite]
  refine if_congr Iff.rfl rfl ?_
  rw [run_stack_bind, pbufAlloc_eq]
  by_cases halloc : env.pbufAlloc (w.lwip.count .pbufAlloc) = true
  · rw [if_pos halloc, if_pos halloc]
    change (stack (pbufTake env w.lwip.nextPbuf order.buffer) >>= _) (allocated order.size w) = _
    cases order.buffer with
    | none =>
      have hval : Err.val ≠ .ok := by decide
      rw [run_stack_bind, pbufTake_none env hnew, run_ite, if_pos hval, run_stack_bind, pbufFree_eq hnew]
      rfl
    | some data =>
      rw [run_stack_bind, pbufTake_eq env hnew, htake, run_ite]
      by_cases hok : env.pbufTake (w.lwip.count .pbufTake) = .ok
      · simp only [hok, ne_eq, not_true_eq_false, if_true, if_false]
        rfl
      · simp only [hok, ne_eq, not_false_eq_true, if_true, if_false]
        rw [run_stack_bind, pbufFree_eq]
        · rfl
        · exact hnew
  · rw [if_neg halloc, if_neg halloc]
    rfl

variable (states env) in
theorem addOrderToQueue_spec (order : Order) (h : Packets hand w) :
    Transmits states hand p (if (addOrderToQueue states env order w).1 then order.encoding else []) w
      (addOrderToQueue states env order w).2 := by
  have hnew : Transmits states (w.lwip.nextPbuf :: hand) p [] w (allocated order.size w) :=
    .allocated order.size h
  rw [addOrderToQueue_eq]
  split
  · exact .refl h
  split
  · exact .refl h
  split
  · exact .refl h
  split
  · cases hdata : order.buffer with
    | none => exact hnew.trans (.freed hnew.packets)
    | some data =>
      have hencoding : order.encoding = data := by rw [Order.encoding, hdata]; rfl
      dsimp only
      split
      · rw [if_pos rfl, hencoding]
        exact hnew.trans (.pushed data hnew.packets)
      · have hasked : Transmits states (w.lwip.nextPbuf :: hand) p [] (allocated order.size w)
            { w with lwip := counted .pbufTake (allocated order.size w).lwip } :=
          .asked hnew.packets rfl (.inl rfl)
        exact hnew.trans (hasked.trans (.freed hasked.packets))
  · exact .asked h rfl (.inl rfl)

variable (states env) in
/-- `send_order` on a connection: the stream grows by the order when it was taken, and else
not at all. -/
theorem sendConnected_spec (order : Order) (h : Packets hand w) (hp : w.block = some p)
    (hb : w.lwip.blocks p = some b) :
    Transmits states hand p (if (sendConnected states env order w).1 then order.encoding else []) w
      (sendConnected states env order w).2 := by
  have hflush : ∀ {u : World σ ρ} {x : List Byte}, Transmits states hand p x w u →
      Transmits states hand p x w (send states env u).2 := by
    intro u x hu
    have hsend := (send_spec states env hu.packets (hu.block.trans hp) (hu.blocks ▸ hb)).1
    have hboth := hu.trans hsend
    rwa [List.append_nil] at hboth
  have hadd : ∀ {u : World σ ρ}, Transmits states hand p [] w u →
      Transmits states hand p (if (addOrderToQueue states env order u).1 then order.encoding else []) w
        (addOrderToQueue states env order u).2 := fun hu =>
    hu.trans (addOrderToQueue_spec states env order hu.packets)
  have htry := trySendImmediately_spec states env order h hp hb
  rw [sendConnected, run_bind]
  cases htaken : (trySendImmediately states env order w).1 with
  | true =>
    rw [htaken] at htry
    exact htry
  | false =>
    rw [htaken, if_neg Bool.false_ne_true] at htry
    generalize (trySendImmediately states env order w).2 = u at htry ⊢
    have hfirst := hadd htry
    rw [if_neg Bool.false_ne_true, run_bind]
    cases hqueued : (addOrderToQueue states env order u).1 with
    | true =>
      rw [hqueued] at hfirst
      exact hflush hfirst
    | false =>
      rw [hqueued, if_neg Bool.false_ne_true] at hfirst
      generalize (addOrderToQueue states env order u).2 = v at hfirst ⊢
      have hsecond := hadd (hflush hfirst)
      rw [if_neg Bool.false_ne_true, run_bind, run_bind]
      cases hqueued' : (addOrderToQueue states env order (send states env v).2).1 with
      | true =>
        rw [hqueued'] at hsecond
        exact hflush hsecond
      | false =>
        rw [hqueued'] at hsecond
        exact hsecond

/-- `send_order` where there is no connection. -/
theorem sendOrder_disconnected {d : M σ ρ Unit} (order : Order)
    (h : w.block = none ∨ w.state ≠ states.connected) :
    sendOrder states env d order w = (false, (d w).2) := by
  rw [sendOrder, run_get_bind]
  cases hp : w.block with
  | none => rfl
  | some p =>
    have hstate : w.state ≠ states.connected := h.resolve_left (by simp [hp])
    dsimp only
    rw [if_pos hstate]
    rfl

variable (states env) in
/-- `send_order` records the order when it was taken. -/
theorem sendOrder_spec {d : M σ ρ Unit} (order : Order) (h : Packets hand w) (hp : w.block = some p)
    (hb : w.lwip.blocks p = some b) (hstate : w.state = states.connected) :
    ∃ w', Transmits states hand p (if (sendOrder states env d order w).1 then order.encoding else []) w w' ∧
      (sendOrder states env d order w).2 =
        if (sendOrder states env d order w).1 then record p order w' else w' := by
  have heq : sendOrder states env d order w = ((sendConnected states env order w).1,
      if (sendConnected states env order w).1 then record p order (sendConnected states env order w).2
      else (sendConnected states env order w).2) := by
    rw [sendOrder, run_get_bind, hp]
    dsimp only
    rw [if_neg (not_not.mpr hstate), run_bind]
    cases (sendConnected states env order w).1 <;> rfl
  rw [heq]
  exact ⟨_, sendConnected_spec states env order h hp hb, rfl⟩

variable (states env) in
/-- `send_order` on a connection adds to what was taken what it adds to the stream. -/
theorem sendOrder_takes {d : M σ ρ Unit} (order : Order) (h : Packets hand w) (hp : w.block = some p)
    (hb : w.lwip.blocks p = some b) (hstate : w.state = states.connected) :
    ∃ w' taken x, (sendOrder states env d order w).2 = { w' with taken := taken } ∧
      Transmits states hand p x w w' ∧ (∀ q, q ≠ p → taken q = w.taken q) ∧
      (taken p).flatten = (w.taken p).flatten ++ x := by
  obtain ⟨w', ht, heq⟩ := sendOrder_spec states env (d := d) order h hp hb hstate
  split at ht
  · next htaken =>
    rw [heq, if_pos htaken, record, ht.taken]
    refine ⟨w', _, order.encoding, rfl, ht, fun q hq => Function.update_of_ne hq .., ?_⟩
    rw [Function.update_self, List.flatten_append, List.flatten_singleton]
  · next htaken =>
    rw [heq, if_neg htaken]
    exact ⟨w', w'.taken, [], rfl, ht, fun q _ => congrFun ht.taken q, by rw [ht.taken, List.append_nil]⟩

end StLib.Ethernet.Transmit
