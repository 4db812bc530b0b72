import StLib.Ethernet.Transmit

/-! # The callbacks that both TCP sockets share

What `receive_callback`, `poll_callback` and `send_callback` do for the block of a connection
that is still there. -/
namespace StLib.Ethernet.Callbacks

open Base.Bytes (Byte)
open Base.OwnedHeap Lwip Endpoint Calls Transmit

variable {σ ρ : Type} {states : States σ} {env : Env} {p d : Nat} {b : Block} {data x : List Byte}
  {hand : List Nat} {w : World σ ρ}

/-! ## What lwIP changes -/

/-- A block that lwIP changes. -/
def setBlock (p : Nat) (b : Option Block) (w : World σ ρ) : World σ ρ :=
  { w with lwip := { w.lwip with blocks := Function.update w.lwip.blocks p b } }

/-- A received `pbuf`. -/
def arrived (data : List Byte) (w : World σ ρ) : World σ ρ :=
  { w with
    lwip := { w.lwip with
      pbufs := Function.update w.lwip.pbufs w.lwip.nextPbuf (some data)
      nextPbuf := w.lwip.nextPbuf + 1 } }

theorem arrived_transmits (data : List Byte) (h : Packets hand w) :
    Transmits states (w.lwip.nextPbuf :: hand) p [] w (arrived data w) := by
  have hnew : w.lwip.nextPbuf ∉ w.tx := fun hmem =>
    h.owned.next_notMem (List.mem_append_left _ (List.mem_append_left _ hmem))
  refine ⟨⟨rfl, rfl, rfl, rfl, fun _ _ => rfl, rfl, rfl, rfl, rfl⟩, ⟨h.misused, ?_⟩, ?_, .inl rfl⟩
  · exact (h.owned.alloc _).perm List.perm_middle.symm
  · rw [List.append_nil]
    exact congrArg (w.lwip.written p ++ ·) (contents_update hnew _)

/-! ## Packets -/

/-- After the parser has processed a packet. -/
def parsed (env : Env) (parse : Nat → M σ ρ Unit) (data : List Byte) (w : World σ ρ) : World σ ρ :=
  if env.pbufCopyPartial (w.lwip.count .pbufCopyPartial) = data.length then
    (parse (w.lwip.count .parse) { w with lwip := counted .parse (counted .pbufCopyPartial w.lwip) }).2
  else { w with lwip := counted .pbufCopyPartial w.lwip }

/-- What counting an answer and the order callbacks keep, the parser keeps. -/
theorem parsed_rule {parse : Nat → M σ ρ Unit} {P : World σ ρ → Prop} (data : List Byte)
    (hcounted : ∀ (f : Fn) w, P w → P { w with lwip := counted f w.lwip })
    (hparse : ∀ n w, P w → P (parse n w).2) (h : P w) : P (parsed env parse data w) := by
  have hcopy := hcounted .pbufCopyPartial w h
  unfold parsed
  split
  · exact hparse _ _ (hcounted .parse _ hcopy)
  · exact hcopy

/-- Only a packet that is copied reaches the order callbacks. -/
theorem parsed_aborted_iff {parse : Nat → M σ ρ Unit} {Q : Prop} (data : List Byte) (hnot : p ∉ w.lwip.aborted)
    (hparse : p ∈ (parse (w.lwip.count .parse)
      { w with lwip := counted .parse (counted .pbufCopyPartial w.lwip) }).2.lwip.aborted ↔ Q) :
    p ∈ (parsed env parse data w).lwip.aborted ↔
      env.pbufCopyPartial (w.lwip.count .pbufCopyPartial) = data.length ∧ Q := by
  unfold parsed
  split
  · next hcopied => exact hparse.trans (and_iff_right hcopied).symm
  · next hcopied => exact iff_of_false hnot fun h => hcopied h.1

/-- One packet is processed and freed. -/
theorem processData_one {parse : Nat → M σ ρ Unit} (hp : w.block = some p)
    (hb : w.lwip.blocks p = some b) (hrx : w.rx = []) (hd : w.lwip.pbufs d = some data)
    (hx : (parsed env parse data w).lwip.pbufs d = some x) :
    processData env parse { w with rx := w.rx ++ [d] } = ((), freed d (parsed env parse data w)) := by
  have hqueue : w.rx ++ [d] = [d] := by rw [hrx, List.nil_append]
  rw [hqueue, processData, run_get_bind]
  change processLoop env parse 1 { w with rx := [d] } = _
  have hpopped : ({ w with rx := [] } : World σ ρ) = w := by rw [← hrx]
  have hfree : (stack (pbufFree d) >>= fun _ => processLoop env parse 0) (parsed env parse data w) =
      ((), freed d (parsed env parse data w)) := by
    rw [run_stack_bind, pbufFree_eq hx]
    rfl
  rw [processLoop, run_get_bind]
  dsimp only
  rw [run_set_bind, hpopped]
  conv_lhs => rw [hp]
  dsimp only
  rw [run_stack_bind, use_eq hb, run_stack_bind, pbufPayload_eq hd, run_stack_bind, pbufCopyPartial_eq env hd]
  dsimp only
  rw [← hfree, run_ite, parsed]
  by_cases hcopied : env.pbufCopyPartial (w.lwip.count .pbufCopyPartial) = data.length
  · rw [if_pos hcopied, if_pos hcopied]
    rfl
  · rw [if_neg hcopied, if_neg hcopied]

/-! ## Callbacks -/

section Callbacks

variable [DecidableEq σ] {process close : M σ ρ Unit} {onError : OnError → M σ ρ Unit} {error : Err}

theorem receiveCallback_null (hp : w.block = some p) :
    receiveCallback states process true p none error w = (.ok, { w with state := states.closing }) := by
  rw [receiveCallback]
  change (Err.ok, { w with state := states.closing, block := some p }) = _
  rw [← hp]

theorem receiveCallback_packet (hp : w.block = some p) (hd : w.lwip.pbufs d = some data) :
    receiveCallback states process true p (some d) error w =
      (.ok,
        if error = .ok ∧ w.state = states.connected then (process { w with rx := w.rx ++ [d] }).2
        else freed d w) := by
  have hsame : ({ w with block := some p } : World σ ρ) = w := by rw [← hp]
  have hfree : stack (pbufFree d) w = ((), freed d w) := by
    rw [run_stack, pbufFree_eq hd]
    rfl
  rw [receiveCallback]
  change ((do
    let w ← get
    if error ≠ .ok then
      stack (pbufFree d)
      pure .ok
    else if w.state = states.connected then
      modify fun w => { w with rx := w.rx ++ [d] }
      process
      pure .ok
    else
      stack (pbufFree d)
      pure .ok : M σ ρ Err)) { w with block := some p } = _
  rw [hsame, run_get_bind]
  by_cases herror : error = .ok
  · rw [if_neg (not_not.mpr herror)]
    by_cases hstate : w.state = states.connected
    · rw [if_pos hstate, if_pos ⟨herror, hstate⟩]
      rfl
    · rw [if_neg hstate, if_neg fun h => hstate h.2, run_bind, hfree]
      rfl
  · rw [if_pos herror, if_neg fun h => herror h.1, run_bind, hfree]
    rfl

/-- With nothing queued `send` does nothing. -/
theorem send_nil (hp : w.block = some p) (hb : w.lwip.blocks p = some b) (htx : w.tx = []) :
    send states env w = ((), w) := by
  by_cases hstate : w.state = states.connected
  · rw [send_connected hp hstate, htx, run_bind]
    change stack (use p) w = _
    rw [run_stack, use_eq hb]
  · exact send_idle hstate

/-- What `poll_callback` and `send_callback` do last. -/
def closeIfClosing (states : States σ) (close : M σ ρ Unit) (w : World σ ρ) : World σ ρ :=
  if w.state = states.closing then (close w).2 else w

theorem run_closeIfClosing (u : World σ ρ) :
    (if u.state = states.closing then do
      close
      pure Err.ok
    else pure Err.ok : M σ ρ Err) u = (.ok, closeIfClosing states close u) := by
  rw [closeIfClosing]
  split <;> rfl

theorem pollCallback_eq (hp : w.block = some p) (hb : w.lwip.blocks p = some b)
    (hrx : (send states env w).2.rx = []) :
    pollCallback states env onError process close true p w =
      (.ok, closeIfClosing states close (send states env w).2) := by
  have hsame : ({ w with block := some p } : World σ ρ) = w := by rw [← hp]
  -- without received packets, what is left after `send` is the close
  have hrest : ∀ u : World σ ρ, u.rx = [] →
      (do
        let w ← get
        if w.rx ≠ [] then process
        let w ← get
        if w.state = states.closing then close
        pure .ok : M σ ρ Err) u = (.ok, closeIfClosing states close u) := by
    intro u hu
    rw [run_get_bind, if_neg (not_not.mpr hu)]
    exact run_closeIfClosing u
  rw [pollCallback]
  simp only [Bool.not_true, Bool.false_eq_true, if_false]
  rw [run_modify_bind, hsame, run_get_bind]
  by_cases htx : w.tx = []
  · rw [send_nil hp hb htx] at hrx ⊢
    rw [if_neg (not_not.mpr htx)]
    exact hrest w hrx
  · rw [if_pos htx]
    exact hrest _ hrx

theorem sendCallback_eq (hp : w.block = some p) :
    sendCallback states env onError close true p w =
      (.ok, if w.tx ≠ [] then (send states env w).2 else closeIfClosing states close w) := by
  have hsame : ({ w with block := some p } : World σ ρ) = w := by rw [← hp]
  rw [sendCallback]
  simp only [Bool.not_true, Bool.false_eq_true, if_false]
  rw [run_modify_bind, hsame, run_get_bind]
  by_cases htx : w.tx = []
  · rw [if_neg (not_not.mpr htx), if_neg (not_not.mpr htx)]
    exact run_closeIfClosing w
  · rw [if_pos htx, if_pos htx]
    rfl

end Callbacks

/-! ## The block of a connection -/

/-- The next `tcp_close` fails. -/
def CloseFails (env : Env) (w : World σ ρ) : Prop := env.tcpClose (w.lwip.count .tcpClose) ≠ .ok

instance : Decidable (CloseFails env w) := inferInstanceAs (Decidable (_ ≠ _))

/-- After the queue was flushed the connection is closing. -/
def Closes (states : States σ) (env : Env) (w : World σ ρ) : Prop :=
  w.state = states.closing ∨ w.state = states.connected ∧
    fatalWrite env (w.lwip.count .tcpSndbuf) (w.lwip.count .tcpWrite) (queued w) = true

/-- What the order callbacks for a packet do aborts the block: `aborts` tells it by the number
of the parse and by whether the next `tcp_close` fails. -/
def Breaks (env : Env) (aborts : Bool → Nat → Bool) (data : List Byte) (w : World σ ρ) : Prop :=
  env.pbufCopyPartial (w.lwip.count .pbufCopyPartial) = data.length ∧
    aborts (CloseFails env w) (w.lwip.count .parse) = true

/-- A received packet is processed. -/
def Reads (states : States σ) (error : Err) (w : World σ ρ) : Prop :=
  error = .ok ∧ w.state = states.connected

/-- What a class keeps: `Owned hand` by its invariant, with the packets of `hand` being
processed, and `Active c b` while it has the block `c`. -/
structure Connection [DecidableEq σ] (states : States σ) (env : Env) (parse : Nat → M σ ρ Unit)
    (close : M σ ρ Unit) (aborts : Bool → Nat → Bool) (Owned : List Nat → World σ ρ → Prop)
    (Active : Nat → Block → World σ ρ → Prop) : Prop where
  packets : ∀ {hand w}, Owned hand w → Packets hand w
  block : ∀ {c b w}, Active c b w → w.block = some c
  live : ∀ {c b w}, Active c b w → w.lwip.blocks c = some b
  rx : ∀ {c b w}, Active c b w → w.rx = []
  notAborted : ∀ {c b w}, Active c b w → c ∉ w.lwip.aborted
  transmits : ∀ {hand hand' c b w t}, Owned hand w → Active c b w → Transmits states hand' c [] w t →
    Owned hand' t ∧ Active c b t
  closing : ∀ {c b w}, Owned [] w → Active c b w → Owned [] { w with state := states.closing }
  closed : ∀ {c b w}, Owned [] w → Active c b w →
    Owned [] (close w).2 ∧ (c ∈ (close w).2.lwip.aborted ↔ CloseFails env w)
  parsed : ∀ {hand c b w} (data : List Byte), Owned hand w → Active c b w →
    Owned hand (parsed env parse data w) ∧
      (c ∈ (parsed env parse data w).lwip.aborted ↔ Breaks env aborts data w)
  freed : ∀ {d w}, Owned [d] w → Owned [] (freed d w)

/-- A callback for the block `c` that returns `ERR_OK`, having aborted the block when `bad`. -/
structure Answers (Owned : List Nat → World σ ρ → Prop) (c : Nat) (bad : Prop) (r : Err × World σ ρ) :
    Prop where
  ok : r.1 = .ok
  owned : Owned [] r.2
  aborted : c ∈ r.2.lwip.aborted ↔ bad

/-- `p` was aborted from `w` to `t`. -/
def Aborted (p : Option Nat) (w t : World σ ρ) : Prop :=
  ∃ q, p = some q ∧ q ∉ w.lwip.aborted ∧ q ∈ t.lwip.aborted

/-- What a callback for the block `p` returns tells lwIP whether it aborted the block. -/
def Contract (p : Option Nat) (w : World σ ρ) (error : Err) (t : World σ ρ) : Prop :=
  error = .abrt ↔ Aborted p w t

theorem not_aborted_none (w t : World σ ρ) : ¬ Aborted none w t := fun ⟨_, hq, _⟩ => nomatch hq

theorem aborted_iff {c : Nat} {t : World σ ρ} (hw : c ∉ w.lwip.aborted) :
    Aborted (some c) w t ↔ c ∈ t.lwip.aborted := by
  constructor
  · rintro ⟨q, hq, -, ht⟩
    cases hq
    exact ht
  · exact fun ht => ⟨c, rfl, hw, ht⟩

/-- With `ERR_OK` for an answer the contract says that the block was not aborted. -/
theorem Answers.contract {Owned : List Nat → World σ ρ → Prop} {c : Nat} {bad : Prop} {error : Err}
    {t : World σ ρ} (h : Answers Owned c bad (error, t)) (hw : c ∉ w.lwip.aborted) :
    Contract (some c) w error t ↔ ¬ bad := by
  have hok : error ≠ .abrt := fun habort => nomatch h.ok.symm.trans habort
  rw [Contract, aborted_iff hw, h.aborted, iff_false_left hok]

namespace Connection

variable [DecidableEq σ] {parse : Nat → M σ ρ Unit} {close : M σ ρ Unit} {aborts : Bool → Nat → Bool}
  {Owned : List Nat → World σ ρ → Prop} {Active : Nat → Block → World σ ρ → Prop} {c : Nat} {error : Err}
  {onError : OnError → M σ ρ Unit}

theorem sends (K : Connection states env parse close aborts Owned Active) (h : Owned [] w)
    (hc : Active c b w) :
    Owned [] (send states env w).2 ∧ Active c b (send states env w).2 ∧
      (CloseFails env (send states env w).2 ↔ CloseFails env w) ∧
      ((send states env w).2.state = states.closing ↔ Closes states env w) := by
  obtain ⟨ht, hstate⟩ := send_spec states env (K.packets h) (K.block hc) (K.live hc)
  obtain ⟨howned, hactive⟩ := K.transmits h hc ht
  refine ⟨howned, hactive, ?_, ?_⟩
  · rw [CloseFails, ht.closes, CloseFails]
  · rw [hstate, Closes]
    split
    · next hfatal => exact iff_of_true rfl (.inr hfatal)
    · next hfatal => exact ⟨.inl, fun hcloses => hcloses.resolve_right hfatal⟩

theorem closesIfClosing (K : Connection states env parse close aborts Owned Active) (h : Owned [] w)
    (hc : Active c b w) :
    Answers Owned c (w.state = states.closing ∧ CloseFails env w)
      (.ok, closeIfClosing states close w) := by
  unfold closeIfClosing
  split
  · next hclosing =>
    obtain ⟨howned, haborted⟩ := K.closed h hc
    exact ⟨rfl, howned, haborted.trans (and_iff_right hclosing).symm⟩
  · next hopen =>
    exact ⟨rfl, h, iff_of_false (K.notAborted hc) fun hclosing => hopen hclosing.1⟩

/-- `poll_callback`. -/
theorem poll (K : Connection states env parse close aborts Owned Active) (h : Owned [] w)
    (hc : Active c b w) :
    Answers Owned c (Closes states env w ∧ CloseFails env w)
      (pollCallback states env onError (processData env parse) close true c w) := by
  obtain ⟨howned, hactive, hfails, hcloses⟩ := K.sends h hc
  obtain ⟨hok, howned', haborted⟩ := K.closesIfClosing howned hactive
  rw [pollCallback_eq (K.block hc) (K.live hc) (K.rx hactive)]
  exact ⟨hok, howned', haborted.trans (and_congr hcloses hfails)⟩

/-- `send_callback`. -/
theorem sent (K : Connection states env parse close aborts Owned Active) (h : Owned [] w)
    (hc : Active c b w) :
    Answers Owned c (w.tx = [] ∧ w.state = states.closing ∧ CloseFails env w)
      (sendCallback states env onError close true c w) := by
  rw [sendCallback_eq (K.block hc)]
  split
  · next htx =>
    obtain ⟨howned, hactive, -, -⟩ := K.sends h hc
    exact ⟨rfl, howned, iff_of_false (K.notAborted hactive) fun hclosed => htx hclosed.1⟩
  · next htx =>
    obtain ⟨hok, howned, haborted⟩ := K.closesIfClosing h hc
    exact ⟨hok, howned, haborted.trans (and_iff_right (not_not.mp htx)).symm⟩

/-- `receive_callback` when the peer has closed. -/
theorem receive_null (K : Connection states env parse close aborts Owned Active) (h : Owned [] w)
    (hc : Active c b w) :
    Answers Owned c False (receiveCallback states (processData env parse) true c none error w) := by
  have hkept : c ∉ w.lwip.aborted := K.notAborted hc
  rw [receiveCallback_null (K.block hc)]
  exact ⟨rfl, K.closing h hc, iff_of_false hkept id⟩

/-- `receive_callback` for a packet. -/
theorem receive_packet (K : Connection states env parse close aborts Owned Active) (data : List Byte)
    (h : Owned [] w) (hc : Active c b w) :
    Answers Owned c (Reads states error w ∧ Breaks env aborts data w)
      (receiveCallback states (processData env parse) true c (some w.lwip.nextPbuf) error
        (arrived data w)) := by
  have hnew : (arrived data w).lwip.pbufs w.lwip.nextPbuf = some data := Function.update_self ..
  obtain ⟨howned, hactive⟩ := K.transmits h hc (arrived_transmits data (K.packets h))
  obtain ⟨hparsed, hbreaks⟩ := K.parsed data howned hactive
  obtain ⟨x, hx⟩ := (K.packets hparsed).owned.get (List.mem_append_right _ List.mem_cons_self)
  rw [receiveCallback_packet (K.block hactive) hnew,
    processData_one (K.block hactive) (K.live hactive) (K.rx hactive) hnew hx]
  dsimp only
  split
  · next hreads => exact ⟨rfl, K.freed hparsed, hbreaks.trans (and_iff_right hreads).symm⟩
  · next hreads =>
    have hkept : c ∉ (arrived data w).lwip.aborted := K.notAborted hactive
    exact ⟨rfl, K.freed howned, iff_of_false hkept fun hbroken => hreads hbroken.1⟩

end Connection

end StLib.Ethernet.Callbacks
