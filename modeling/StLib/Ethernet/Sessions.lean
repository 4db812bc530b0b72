import StLib.Base.Compaction
import StLib.Base.OwnedHeap
import StLib.Base.Runs
import StLib.Ethernet.ServerSocket

/-! # The sessions of a TCP server

`Server.cpp`: the listener, the list of running connections and what becomes of the sockets
that the server creates. A socket is the state that `is_connected` and `is_listening` read;
lwIP moves it between two calls of the server. -/
namespace StLib.Ethernet.Sessions

open StLib.Base.Compaction StLib.Base.OwnedHeap StLib.Base.Runs
open ServerSocket (ServerState)

/-- `deletions` counts how often each socket was deleted. -/
structure Heap where
  sockets : Nat → Option ServerState := fun _ => none
  next : Nat := 0
  deletions : Nat → Nat := fun _ => 0

/-- What a constructor of a socket meets: whether it gets to listen, and the connections that
lwIP aborts to have a control block for it. -/
structure Construction where
  listening : Bool
  aborted : List Nat

namespace Heap

def isConnected (h : Heap) (c : Nat) : Bool := h.sockets c == some .accepted

def isListening (h : Heap) (c : Nat) : Bool := h.sockets c == some .listening

/-- The error callbacks of connections that lwIP aborts. -/
def abort (cs : List Nat) (h : Heap) : Heap :=
  { h with sockets := fun c => if c ∈ cs && h.isConnected c then some .closed else h.sockets c }

def create (k : Construction) (h : Heap) : Heap :=
  let h := h.abort k.aborted
  let state := if k.listening then .listening else .inactive
  { h with sockets := Function.update h.sockets h.next (some state), next := h.next + 1 }

def delete (c : Nat) (h : Heap) : Heap :=
  { h with
    sockets := Function.update h.sockets c none
    deletions := Function.update h.deletions c (h.deletions c + 1) }

def write (c : Nat) (state : ServerState) (h : Heap) : Heap :=
  { h with sockets := Function.update h.sockets c (some state) }

end Heap

inductive Status
  | running
  | closing
  | closed
deriving DecidableEq

def maxConnectionsTcpServer : Nat := 10

/-- `refused` are the connections that were closed for want of room. -/
structure State where
  heap : Heap
  openConnection : Option Nat
  runningConnections : Nat → Option Nat
  runningConnectionsCount : Nat
  status : Status
  refused : List Nat := []

namespace State

/-- `open_connection = new ServerSocket(local_ip, local_port)`. -/
def reopen (k : Construction) (s : State) : State :=
  { s with heap := s.heap.create k, openConnection := some s.heap.next }

def construct (k : Construction) : State :=
  State.reopen k
    { heap := {}
      openConnection := none
      runningConnections := fun _ => none
      runningConnectionsCount := 0
      status := .running }

/-- `update`, up to its check of `is_connected`. -/
def openListener (k : Construction) (s : State) : State :=
  match s.openConnection with
  | none => s.reopen k
  | some c =>
    if !s.heap.isConnected c && !s.heap.isListening c then
      { s with heap := s.heap.delete c }.reopen k
    else s

/-- `update`, where the open connection is connected. -/
def accept (k : Construction) (s : State) : State :=
  match s.openConnection with
  | none => s
  | some c =>
    if s.heap.isConnected c then
      if s.runningConnectionsCount < maxConnectionsTcpServer then
        { s with
          runningConnections :=
            Function.update s.runningConnections s.runningConnectionsCount (some c)
          runningConnectionsCount := s.runningConnectionsCount + 1 }.reopen k
      else
        { s with heap := s.heap.delete c, refused := s.refused ++ [c] }.reopen k
    else s

/-- The two loops of `update`. -/
def compactConnections (s : State) : State :=
  let (count, connections, heap) := pass Heap.isConnected Heap.delete s.runningConnectionsCount
    s.runningConnections s.heap
  { s with heap, runningConnections := connections, runningConnectionsCount := count }

/-- `n` connections from the `i`-th on are deleted. -/
def deleteConnections : Nat → Nat → State → State
  | 0, _, s => s
  | n + 1, i, s =>
    match s.runningConnections i with
    | none => deleteConnections n (i + 1) s
    | some c =>
      deleteConnections n (i + 1)
        { s with
          heap := s.heap.delete c
          runningConnections := Function.update s.runningConnections i none }

def deleteOpen (s : State) : State :=
  match s.openConnection with
  | none => s
  | some c => { s with heap := s.heap.delete c, openConnection := none }

def closeAll (s : State) : State :=
  let s := s.deleteConnections s.runningConnectionsCount 0
  let s := { s with runningConnectionsCount := 0 }.deleteOpen
  { s with status := .closed }

/-- `update`, with the two sockets that it may construct. -/
def update (k k' : Construction) (s : State) : State :=
  if s.status = .closed then s
  else
    let s := ((s.openListener k).accept k').compactConnections
    if s.status = .closing then s.closeAll else s

/-- `~Server`, of which the heap is left. -/
def destroy (s : State) : Heap :=
  (s.deleteOpen.deleteConnections s.runningConnectionsCount 0).heap

/-- `send_order` of a session: whether the order is sent, and whether lwIP reports an error
that closes the connection. -/
structure Sending where
  sent : Bool
  fatal : Bool

def sendOrder (x : Sending) (c : Nat) (h : Heap) : Bool × Heap :=
  if h.isConnected c then (x.sent, if x.fatal then h.write c .closing else h) else (false, h)

def broadcastLoop (sending : Nat → Sending) : Nat → Nat → Bool → State → Bool × State
  | 0, _, sent, s => (sent, s)
  | n + 1, i, sent, s =>
    match s.runningConnections i with
    | none => broadcastLoop sending n (i + 1) sent s
    | some c =>
      let (ok, heap) := sendOrder (sending c) c s.heap
      broadcastLoop sending n (i + 1) (ok || sent) { s with heap }

def broadcastOrder (sending : Nat → Sending) (s : State) : Bool × State :=
  broadcastLoop sending s.runningConnectionsCount 0 false s

end State

/-! ## Runs -/

inductive Server
  | alive (s : State)
  | destroyed (h : Heap)

/-- What the callbacks of lwIP make of a socket. -/
def Moves : ServerState → ServerState → Bool
  | .listening, .accepted => true
  | .accepted, .closing => true
  | .accepted, .closed => true
  | .closing, .closed => true
  | _, _ => false

inductive Event
  | update (k k' : Construction)
  | broadcastOrder (sending : Nat → State.Sending)
  | connection (c : Nat) (state : ServerState)
  | setClosing
  | closeAll
  | destroy

def step : Server → Event → Option Server
  | .destroyed _, _ => none
  | .alive s, .update k k' => some (.alive (s.update k k'))
  | .alive s, .broadcastOrder sending => some (.alive (s.broadcastOrder sending).2)
  | .alive s, .connection c state =>
    if (s.heap.sockets c).any (Moves · state) then
      some (.alive { s with heap := s.heap.write c state })
    else none
  | .alive s, .setClosing =>
    if s.status = .running then some (.alive { s with status := .closing }) else none
  | .alive s, .closeAll => some (.alive s.closeAll)
  | .alive s, .destroy => some (.destroyed s.destroy)

abbrev Step (v : Server) (e : Event) (w : Server) : Prop := step v e = some w

/-! ## What is claimed -/

/-- The list of connections. -/
structure ListRight (s : State) : Prop where
  noGaps : ∀ i, s.runningConnections i ≠ none ↔ i < s.runningConnectionsCount
  noDuplicates : ∀ i j c, s.runningConnections i = some c → s.runningConnections j = some c → i = j
  connected : ∀ i c, s.runningConnections i = some c → s.heap.isConnected c = true
  bounded : s.runningConnectionsCount ≤ maxConnectionsTcpServer

def Server.heap : Server → Heap
  | alive s => s.heap
  | destroyed h => h

def Server.Holds : Server → Nat → Prop
  | alive s, c => s.openConnection = some c ∨ ∃ i, s.runningConnections i = some c
  | destroyed _, _ => False

/-- A socket that was created is held and was never deleted, or was deleted once. -/
def DeletedOnce (v : Server) : Prop :=
  ∀ c < v.heap.next, v.Holds c ∧ v.heap.deletions c = 0 ∨ ¬ v.Holds c ∧ v.heap.deletions c = 1

/-- The sessions of the list that are connected. -/
def State.live (s : State) : Nat :=
  (List.range s.runningConnectionsCount).countP fun i =>
    (s.runningConnections i).any s.heap.isConnected

/-- What is claimed of an update. -/
def UpdateRight (s : State) : Server → Prop
  | .alive t => ListRight t ∧ (t.refused ≠ s.refused → s.live = maxConnectionsTcpServer)
  | .destroyed _ => True

def Right (v : Server) (e : Event) : Prop :=
  ∀ w, Step v e w → DeletedOnce w ∧
    match v, e with
    | .alive s, .update _ _ => UpdateRight s w
    | _, _ => True

/-- An update finds a connection to refuse. -/
def State.Refuses (s : State) : Prop :=
  s.status ≠ .closed ∧ (∃ c, s.openConnection = some c ∧ s.heap.isConnected c = true) ∧
    s.runningConnectionsCount = maxConnectionsTcpServer

/-- An update that finds the list full, and a new connection, finds all of the list
connected. -/
def Meets : Server → Event → Prop
  | .alive s, .update _ _ => s.Refuses →
      ∀ i c, s.runningConnections i = some c → s.heap.isConnected c = true
  | _, _ => True

/-! ## The heap -/

namespace Heap

/-- The sockets in `ids` are there, and every other one was deleted once. -/
structure Keeps (h : Heap) (ids : List Nat) : Prop where
  owns : Owns h.sockets h.next ids
  once : ∀ c < h.next, h.deletions c = if c ∈ ids then 0 else 1
  fresh : ∀ c, h.next ≤ c → h.deletions c = 0

variable {h : Heap} {c : Nat} {ids ids' : List Nat}

theorem isConnected_delete {a b : Nat} (h : Heap) (hne : a ≠ b) :
    (h.delete a).isConnected b = h.isConnected b := by
  have hb : (h.delete a).sockets b = h.sockets b := Function.update_of_ne (Ne.symm hne) ..
  unfold isConnected
  rw [hb]

namespace Keeps

theorem empty : Keeps {} [] where
  owns := .empty 0
  once _ hc := absurd hc (Nat.not_lt_zero _)
  fresh _ _ := rfl

theorem perm (hk : h.Keeps ids) (hp : ids.Perm ids') : h.Keeps ids' where
  owns := hk.owns.perm hp
  once c hc := (hk.once c hc).trans (if_congr hp.mem_iff rfl rfl)
  fresh := hk.fresh

theorem mem_of_isConnected (hk : h.Keeps ids) (hc : h.isConnected c = true) : c ∈ ids := by
  refine (hk.owns.allocated c).mp fun hnone => ?_
  unfold isConnected at hc
  rw [hnone] at hc
  cases hc

theorem abort (hk : h.Keeps ids) (cs : List Nat) : (h.abort cs).Keeps ids where
  owns := by
    refine hk.owns.congr fun c => ?_
    show (if c ∈ cs && h.isConnected c then some ServerState.closed else h.sockets c) = none ↔ _
    split
    · next hlost =>
      have hmem := hk.mem_of_isConnected (Bool.and_eq_true_iff.mp hlost).2
      exact iff_of_false nofun ((hk.owns.allocated c).mpr hmem)
    · exact Iff.rfl
  once := hk.once
  fresh := hk.fresh

theorem create (hk : h.Keeps ids) (k : Construction) : (h.create k).Keeps (h.next :: ids) where
  owns := (hk.abort k.aborted).owns.alloc _
  once c hc := by
    show h.deletions c = _
    change c < h.next + 1 at hc
    rcases Nat.lt_succ_iff_lt_or_eq.mp hc with hlt | rfl
    · rw [hk.once c hlt]
      exact if_congr (by simp [Nat.ne_of_lt hlt]) rfl rfl
    · rw [if_pos List.mem_cons_self]
      exact hk.fresh _ (Nat.le_refl _)
  fresh c hc := hk.fresh c (Nat.le_of_succ_le hc)

theorem delete (hk : h.Keeps (c :: ids)) : (h.delete c).Keeps ids where
  owns := hk.owns.free
  once b hb := by
    show Function.update h.deletions c (h.deletions c + 1) b = _
    have hold := hk.once b hb
    by_cases hbc : b = c
    · subst hbc
      rw [Function.update_self, hold, if_pos List.mem_cons_self,
        if_neg (List.nodup_cons.mp hk.owns.nodup).1]
    · rw [Function.update_of_ne hbc, hold]
      exact if_congr (by simp [hbc]) rfl rfl
  fresh b hb := by
    have hlt := hk.owns.bounded c List.mem_cons_self
    have hne : b ≠ c := fun h => Nat.lt_irrefl _ (Nat.lt_of_lt_of_le hlt (h ▸ hb))
    exact (Function.update_of_ne hne ..).trans (hk.fresh b hb)

theorem deleteAll : ∀ {cs : List Nat} {h : Heap}, h.Keeps (cs ++ ids) →
    (dropAll Heap.delete cs h).Keeps ids
  | [], _, hk => hk
  | c :: cs, h, hk => by
    have htail : (h.delete c).Keeps (cs ++ ids) := hk.delete
    show (dropAll Heap.delete cs (h.delete c)).Keeps ids
    exact deleteAll htail

theorem write (hk : h.Keeps ids) (hc : c ∈ ids) (state : ServerState) :
    (h.write c state).Keeps ids where
  owns := hk.owns.write hc _
  once := hk.once
  fresh := hk.fresh

end Keeps

end Heap

/-! ## The list -/

/-- The list of connections is `ids`, and nothing else is allocated but the open one. -/
structure Listed (s : State) (ids : List Nat) : Prop where
  stores : Stores s.runningConnections ids
  count : s.runningConnectionsCount = ids.length
  bounded : ids.length ≤ maxConnectionsTcpServer
  keeps : s.heap.Keeps (s.openConnection.toList ++ ids)

variable {s t : State} {ids : List Nat} {c : Nat}

theorem listed_reopen (k : Construction) (hs : Stores s.runningConnections ids)
    (hc : s.runningConnectionsCount = ids.length) (hb : ids.length ≤ maxConnectionsTcpServer)
    (hk : s.heap.Keeps ids) : Listed (s.reopen k) ids :=
  ⟨hs, hc, hb, hk.create k⟩

theorem stores_append {slots : Nat → Option Nat} (hs : Stores slots ids) :
    Stores (Function.update slots ids.length (some c)) (ids ++ [c]) := by
  intro i
  rcases lt_trichotomy i ids.length with hlt | rfl | hgt
  · rw [Function.update_of_ne (Nat.ne_of_lt hlt), List.getElem?_append_left hlt]
    exact hs i
  · simp
  · rw [Function.update_of_ne (Nat.ne_of_gt hgt), hs i, List.getElem?_eq_none (Nat.le_of_lt hgt),
      List.getElem?_eq_none (by simpa using hgt)]

namespace Listed

theorem nodup (h : Listed s ids) : ids.Nodup := (List.nodup_append.mp h.keeps.owns.nodup).2.1

theorem keeps_some (h : Listed s ids) (ho : s.openConnection = some c) :
    s.heap.Keeps (c :: ids) := by
  have hk := h.keeps
  rwa [ho] at hk

theorem openListener (h : Listed s ids) (k : Construction) : Listed (s.openListener k) ids := by
  unfold State.openListener
  split
  · next ho =>
    have hk := h.keeps
    rw [ho] at hk
    exact listed_reopen k h.stores h.count h.bounded hk
  · next c ho =>
    split
    · exact listed_reopen k h.stores h.count h.bounded (h.keeps_some ho).delete
    · exact h

theorem accept (h : Listed s ids) (k : Construction) : ∃ ids', Listed (s.accept k) ids' := by
  unfold State.accept
  split
  · exact ⟨ids, h⟩
  · next c ho =>
    have hk := h.keeps_some ho
    split
    · split
      · next hlt =>
        rw [h.count] at hlt ⊢
        exact ⟨ids ++ [c], listed_reopen k (stores_append h.stores) (by simp) (by simpa using hlt)
          (hk.perm (List.perm_append_singleton c ids).symm)⟩
      · exact ⟨ids, listed_reopen k h.stores h.count h.bounded hk.delete⟩
    · exact ⟨ids, h⟩

/-- After the two loops the list is what was connected before them. -/
theorem compactConnections (h : Listed s ids) :
    Listed s.compactConnections (ids.filter s.heap.isConnected) ∧
      ∀ c ∈ ids.filter s.heap.isConnected, s.compactConnections.heap.isConnected c = true := by
  have hlocal : ∀ a b (x : Heap), a ≠ b → (x.delete a).isConnected b = x.isConnected b :=
    fun a b x hne => Heap.isConnected_delete x hne
  obtain ⟨slots, hpass, hslots⟩ := pass_spec hlocal h.nodup h.stores s.heap
  have hsplit : (s.openConnection.toList ++ ids).Perm
      ((ids.filter fun c => !s.heap.isConnected c) ++
        (s.openConnection.toList ++ ids.filter s.heap.isConnected)) := by
    have hfilter := (List.filter_append_perm s.heap.isConnected ids).symm
    refine (hfilter.append_left s.openConnection.toList).trans ?_
    rw [← List.append_assoc]
    exact List.perm_append_comm
  unfold State.compactConnections
  rw [h.count, hpass]
  refine ⟨⟨hslots, rfl, (List.length_filter_le _ _).trans h.bounded, ?_⟩, fun c hc => ?_⟩
  · exact (h.keeps.perm hsplit).deleteAll
  · exact keep_of_kept hlocal hc

/-- What is left when all the connections from the `i`-th on are deleted. -/
theorem deleteConnections (others : List Nat) : ∀ {rest : List Nat} {i : Nat} {s : State},
    (∀ j, s.runningConnections (i + j) = rest[j]?) → (∀ j < i, s.runningConnections j = none) →
      s.heap.Keeps (rest ++ others) →
    (s.deleteConnections rest.length i).heap.Keeps others ∧
      (∀ j, (s.deleteConnections rest.length i).runningConnections j = none) ∧
        (s.deleteConnections rest.length i).openConnection = s.openConnection ∧
          (s.deleteConnections rest.length i).refused = s.refused
  | [], i, s, hrest, hnone, hk => by
    refine ⟨hk, fun j => ?_, rfl, rfl⟩
    show s.runningConnections j = none
    by_cases hj : j < i
    · exact hnone j hj
    · have hslot := hrest (j - i)
      rwa [show i + (j - i) = j by omega] at hslot
  | c :: rest, i, s, hrest, hnone, hk => by
    have hi : s.runningConnections i = some c := hrest 0
    have hrest' : ∀ j, Function.update s.runningConnections i none (i + 1 + j) = rest[j]? := by
      intro j
      rw [Function.update_of_ne (by omega), show i + 1 + j = i + (j + 1) by omega]
      exact hrest (j + 1)
    have hnone' : ∀ j < i + 1, Function.update s.runningConnections i none j = none := by
      intro j hj
      by_cases hji : j = i
      · subst hji
        exact Function.update_self ..
      · rw [Function.update_of_ne hji]
        exact hnone j (by omega)
    rw [List.length_cons, State.deleteConnections, hi]
    exact deleteConnections others
      (s := { s with
        heap := s.heap.delete c
        runningConnections := Function.update s.runningConnections i none })
      hrest' hnone' (Heap.Keeps.delete hk)

theorem closeAll (h : Listed s ids) : Listed s.closeAll [] ∧ s.closeAll.refused = s.refused := by
  obtain ⟨hk, hnone, ho, hr⟩ := deleteConnections s.openConnection.toList
    (show ∀ j, s.runningConnections (0 + j) = ids[j]? from
      fun j => by rw [Nat.zero_add]; exact h.stores j)
    (fun j hj => absurd hj (Nat.not_lt_zero j)) (h.keeps.perm List.perm_append_comm)
  rw [← h.count] at hk hnone ho hr
  unfold State.closeAll State.deleteOpen
  dsimp only
  rw [ho]
  cases hopen : s.openConnection with
  | none =>
    rw [hopen] at hk
    exact ⟨⟨hnone, rfl, Nat.zero_le _, hk⟩, hr⟩
  | some c =>
    rw [hopen] at hk
    exact ⟨⟨hnone, rfl, Nat.zero_le _, hk.delete⟩, hr⟩

theorem destroy (h : Listed s ids) : s.destroy.Keeps [] := by
  have hgone : ∀ {t : State}, Stores t.runningConnections ids → t.heap.Keeps ids →
      (t.deleteConnections ids.length 0).heap.Keeps [] := by
    intro t hstores hk
    obtain ⟨hkeeps, -⟩ := deleteConnections []
      (show ∀ j, t.runningConnections (0 + j) = ids[j]? from
        fun j => by rw [Nat.zero_add]; exact hstores j)
      (fun j hj => absurd hj (Nat.not_lt_zero j)) (by rwa [List.append_nil])
    exact hkeeps
  unfold State.destroy State.deleteOpen
  rw [h.count]
  split
  · next ho =>
    have hk := h.keeps
    rw [ho] at hk
    exact hgone h.stores hk
  · next c ho => exact hgone h.stores (h.keeps_some ho).delete

/-- A broadcast only writes to the sockets that are there. -/
theorem broadcastLoop (sending : Nat → State.Sending) : ∀ (n i : Nat) (sent : Bool) (s : State),
    Listed s ids → Listed (s.broadcastLoop sending n i sent).2 ids ∧
      (s.broadcastLoop sending n i sent).2.status = s.status
  | 0, _, _, _, h => ⟨h, rfl⟩
  | n + 1, i, sent, s, h => by
    unfold State.broadcastLoop
    split
    · exact broadcastLoop sending n (i + 1) sent s h
    · next c _ =>
      have hk : (State.sendOrder (sending c) c s.heap).2.Keeps (s.openConnection.toList ++ ids) := by
        unfold State.sendOrder
        split
        · next hc =>
          dsimp only
          split
          · exact h.keeps.write (h.keeps.mem_of_isConnected hc) _
          · exact h.keeps
        · exact h.keeps
      exact broadcastLoop sending n (i + 1) _ { s with heap := (State.sendOrder (sending c) c s.heap).2 }
        ⟨h.stores, h.count, h.bounded, hk⟩

end Listed

/-! ## Updates -/

/-- The check of the listener leaves everything, or constructs a socket. -/
theorem openListener_cases (k : Construction) (s : State) :
    s.openListener k = s ∨ ∃ t : State, t.status = s.status ∧ t.refused = s.refused ∧
      s.openListener k = t.reopen k := by
  unfold State.openListener
  split
  · exact .inr ⟨s, rfl, rfl, rfl⟩
  · next c _ =>
    split
    · exact .inr ⟨{ s with heap := s.heap.delete c }, rfl, rfl, rfl⟩
    · exact .inl rfl

theorem openListener_status (k : Construction) (s : State) :
    (s.openListener k).status = s.status ∧ (s.openListener k).refused = s.refused := by
  rcases openListener_cases k s with he | ⟨t, hstatus, hrefused, he⟩
  · rw [he]
    exact ⟨rfl, rfl⟩
  · rw [he]
    exact ⟨hstatus, hrefused⟩

theorem accept_status (k : Construction) (s : State) : (s.accept k).status = s.status := by
  unfold State.accept
  split
  · rfl
  · split
    · split
      · rfl
      · rfl
    · rfl

/-- A socket that was just constructed is not connected. -/
theorem reopen_not_connected (k : Construction) (s : State) (ho : (s.reopen k).openConnection = some c) :
    (s.reopen k).heap.isConnected c = false := by
  obtain rfl : s.heap.next = c := Option.some.inj ho
  have hnew : (s.reopen k).heap.sockets s.heap.next =
      some (if k.listening then .listening else .inactive) := Function.update_self ..
  unfold Heap.isConnected
  rw [hnew]
  cases k.listening with
  | false => rfl
  | true => rfl

/-- The check of the listener leaves a connected one. -/
theorem openListener_connected (k : Construction) (s : State)
    (ho : (s.openListener k).openConnection = some c)
    (hc : (s.openListener k).heap.isConnected c = true) : s.openListener k = s := by
  rcases openListener_cases k s with he | ⟨t, -, -, he⟩
  · exact he
  · rw [he] at ho hc
    rw [reopen_not_connected k t ho] at hc
    cases hc

theorem openListener_eq (k : Construction) (ho : s.openConnection = some c)
    (hc : s.heap.isConnected c = true) : s.openListener k = s := by
  unfold State.openListener
  rw [ho]
  dsimp only
  rw [hc]
  rfl

/-- A connection is refused where there is one and the list is full. -/
theorem accept_refused (k : Construction) (hb : s.runningConnectionsCount ≤ maxConnectionsTcpServer) :
    (s.accept k).refused ≠ s.refused ↔
      (∃ c, s.openConnection = some c ∧ s.heap.isConnected c = true) ∧
        s.runningConnectionsCount = maxConnectionsTcpServer := by
  unfold State.accept
  split
  · next ho =>
    refine iff_of_false (fun h => h rfl) ?_
    rintro ⟨⟨c, hc, -⟩, -⟩
    cases ho.symm.trans hc
  · next c ho =>
    split
    · next hc =>
      split
      · next hlt =>
        exact iff_of_false (fun h => h rfl) fun h => absurd h.2 (Nat.ne_of_lt hlt)
      · next hge =>
        refine iff_of_true ?_ ⟨⟨c, ho, hc⟩, Nat.le_antisymm hb (Nat.not_lt.mp hge)⟩
        show s.refused ++ [c] ≠ s.refused
        simp
    · next hc =>
      refine iff_of_false (fun h => h rfl) ?_
      rintro ⟨⟨d, hd, hconn⟩, -⟩
      cases ho.symm.trans hd
      exact hc hconn

/-- **One update.** What it leaves is connected, and it refuses a connection exactly when it
finds one and a full list. -/
theorem update_spec (h : Listed s ids) (hopen : s.status ≠ .closed) (k k' : Construction) :
    (∃ ids', Listed (s.update k k') ids' ∧
        (∀ c ∈ ids', (s.update k k').heap.isConnected c = true) ∧
          ((s.update k k').status = .closed → ids' = [])) ∧
      ((s.update k k').refused ≠ s.refused ↔ s.Refuses) := by
  obtain ⟨hstatus, hrefused⟩ := openListener_status k s
  have hlistened := h.openListener k
  obtain ⟨_, haccepted⟩ := hlistened.accept k'
  obtain ⟨hcompact, hconnected⟩ := haccepted.compactConnections
  have hst : ((s.openListener k).accept k').compactConnections.status = s.status :=
    (accept_status k' _).trans hstatus
  have hiff : ((s.openListener k).accept k').refused ≠ s.refused ↔ s.Refuses := by
    rw [← hrefused, accept_refused k' (hlistened.count ▸ hlistened.bounded)]
    constructor
    · rintro ⟨⟨c, ho, hc⟩, hfull⟩
      have hsame := openListener_connected k s ho hc
      rw [hsame] at ho hc hfull
      exact ⟨hopen, ⟨c, ho, hc⟩, hfull⟩
    · rintro ⟨-, ⟨c, ho, hc⟩, hfull⟩
      rw [openListener_eq k ho hc]
      exact ⟨⟨c, ho, hc⟩, hfull⟩
  unfold State.update
  rw [if_neg hopen]
  dsimp only
  rw [hst]
  split
  · obtain ⟨hclosed, hr⟩ := hcompact.closeAll
    rw [hr]
    exact ⟨⟨[], hclosed, nofun, fun _ => rfl⟩, hiff⟩
  · exact ⟨⟨_, hcompact, hconnected, fun hc => absurd (hst.symm.trans hc) hopen⟩, hiff⟩

theorem listRight (h : Listed s ids) (hc : ∀ c ∈ ids, s.heap.isConnected c = true) :
    ListRight s where
  noGaps i := by
    rw [h.stores, h.count]
    simp
  noDuplicates i j c hi hj := by
    rw [h.stores] at hi hj
    obtain ⟨hlt, -⟩ := List.getElem?_eq_some_iff.mp hi
    exact (List.getElem?_inj hlt h.nodup).mp (hi.trans hj.symm)
  connected i c hi := by
    rw [h.stores] at hi
    exact hc c (List.mem_of_getElem? hi)
  bounded := h.count ▸ h.bounded

/-- Of a full list, as many are connected as there may be when all are. -/
theorem live_eq (h : Listed s ids) (hfull : s.runningConnectionsCount = maxConnectionsTcpServer) :
    s.live = maxConnectionsTcpServer ↔
      ∀ i c, s.runningConnections i = some c → s.heap.isConnected c = true := by
  have hrange : (List.range s.runningConnectionsCount).length = maxConnectionsTcpServer :=
    List.length_range.trans hfull
  unfold State.live
  rw [← hrange, List.countP_eq_length]
  constructor
  · intro hall i c hi
    have hlt : i < s.runningConnectionsCount := by
      rw [h.stores] at hi
      rw [h.count]
      exact (List.getElem?_eq_some_iff.mp hi).1
    have hany := hall i (List.mem_range.mpr hlt)
    rwa [hi] at hany
  · intro hall i hi
    rw [List.mem_range, h.count] at hi
    have hslot := (h.stores i).trans (List.getElem?_eq_getElem hi)
    rw [hslot]
    exact hall i _ hslot

/-! ## Every run -/

/-- What holds of a server in every state. -/
def Consistent : Server → Prop
  | .alive s => ∃ ids, Listed s ids ∧ (s.status = .closed → ids = [])
  | .destroyed h => h.Keeps []

theorem deletedOnce {v : Server} (h : Consistent v) : DeletedOnce v := by
  cases v with
  | alive s =>
    obtain ⟨ids, hl, -⟩ := h
    intro c hc
    have hholds : (Server.alive s).Holds c ↔ c ∈ s.openConnection.toList ++ ids := by
      rw [List.mem_append, Option.mem_toList, List.mem_iff_getElem?]
      exact or_congr Iff.rfl (exists_congr fun i => by rw [hl.stores])
    have honce := hl.keeps.once c hc
    by_cases hmem : c ∈ s.openConnection.toList ++ ids
    · exact .inl ⟨hholds.mpr hmem, honce.trans (if_pos hmem)⟩
    · exact .inr ⟨fun h => hmem (hholds.mp h), honce.trans (if_neg hmem)⟩
  | destroyed heap =>
    intro c hc
    exact .inr ⟨nofun, Heap.Keeps.once h c hc⟩

theorem consistent_step {v w : Server} {e : Event} (h : Consistent v) (hs : Step v e w) :
    Consistent w := by
  cases v with
  | destroyed heap => cases hs
  | alive s =>
    obtain ⟨ids, hl, hclosed⟩ := h
    cases e with
    | update k k' =>
      cases hs
      by_cases hopen : s.status = .closed
      · have hsame : s.update k k' = s := if_pos hopen
        rw [hsame]
        exact ⟨ids, hl, hclosed⟩
      · obtain ⟨⟨ids', hl', -, hc'⟩, -⟩ := update_spec hl hopen k k'
        exact ⟨ids', hl', hc'⟩
    | broadcastOrder sending =>
      cases hs
      obtain ⟨hl', hst⟩ := hl.broadcastLoop sending s.runningConnectionsCount 0 false
      exact ⟨ids, hl', fun hc => hclosed (hst.symm.trans hc)⟩
    | connection c state =>
      obtain ⟨hmoves, he⟩ := Option.ite_none_right_eq_some.mp hs
      cases he
      have hmem : c ∈ s.openConnection.toList ++ ids := by
        refine (hl.keeps.owns.allocated c).mp fun hnone => ?_
        rw [hnone] at hmoves
        cases hmoves
      exact ⟨ids, ⟨hl.stores, hl.count, hl.bounded, hl.keeps.write hmem state⟩, hclosed⟩
    | setClosing =>
      obtain ⟨-, he⟩ := Option.ite_none_right_eq_some.mp hs
      cases he
      exact ⟨ids, ⟨hl.stores, hl.count, hl.bounded, hl.keeps⟩, nofun⟩
    | closeAll =>
      cases hs
      exact ⟨[], hl.closeAll.1, fun _ => rfl⟩
    | destroy =>
      cases hs
      exact hl.destroy

/-- **One step.** -/
theorem right_iff_meets {v w : Server} {e : Event} (h : Consistent v) (hs : Step v e w) :
    Right v e ↔ Meets v e := by
  have honce : ∀ w', Step v e w' → DeletedOnce w' := fun w' hs' =>
    deletedOnce (consistent_step h hs')
  cases v with
  | destroyed heap => cases hs
  | alive s =>
    cases e with
    | update k k' =>
      obtain ⟨ids, hl, hclosed⟩ := h
      suffices hupdate : UpdateRight s (.alive (s.update k k')) ↔
          (s.Refuses → ∀ i c, s.runningConnections i = some c → s.heap.isConnected c = true) by
        constructor
        · intro hright
          exact hupdate.mp (hright _ rfl).2
        · intro hmeets w' hs'
          cases hs'
          exact ⟨honce _ rfl, hupdate.mpr hmeets⟩
      by_cases hopen : s.status = .closed
      · have hsame : s.update k k' = s := if_pos hopen
        have hnil := hclosed hopen
        subst hnil
        rw [hsame]
        exact iff_of_true ⟨listRight hl nofun, fun hne => absurd rfl hne⟩
          fun hrefuses => absurd hopen hrefuses.1
      · obtain ⟨⟨ids', hl', hconn, -⟩, hrefused⟩ := update_spec hl hopen k k'
        constructor
        · intro hright hrefuses
          exact (live_eq hl hrefuses.2.2).mp (hright.2 (hrefused.mpr hrefuses))
        · intro hmeets
          refine ⟨listRight hl' hconn, fun hne => ?_⟩
          have hrefuses := hrefused.mp hne
          exact (live_eq hl hrefuses.2.2).mpr (hmeets hrefuses)
    | broadcastOrder sending => exact iff_of_true (fun w' hs' => ⟨honce w' hs', trivial⟩) trivial
    | connection c state => exact iff_of_true (fun w' hs' => ⟨honce w' hs', trivial⟩) trivial
    | setClosing => exact iff_of_true (fun w' hs' => ⟨honce w' hs', trivial⟩) trivial
    | closeAll => exact iff_of_true (fun w' hs' => ⟨honce w' hs', trivial⟩) trivial
    | destroy => exact iff_of_true (fun w' hs' => ⟨honce w' hs', trivial⟩) trivial

theorem consistent_construct (k : Construction) : Consistent (.alive (State.construct k)) :=
  ⟨[], listed_reopen k (fun _ => rfl) rfl (Nat.zero_le _) .empty, nofun⟩

/-- **Sessions.** The list is right after every update of a run, every socket is deleted
once and no connection is refused too early, exactly when no update finds the list full, a
new connection and a session that is not connected. -/
theorem sessions_right_iff (k : Construction) (ls : List Event) (v : Server) :
    Run Step Right (.alive (State.construct k)) ls v ↔
      Run Step Meets (.alive (State.construct k)) ls v := by
  refine Run.congr (I := Consistent) (consistent_construct k) ?_ ?_
  · intro v e w h _ hs
    exact consistent_step h hs
  · intro v e w h hs
    exact right_iff_meets h hs

def listens : Construction where
  listening := true
  aborted := []

/-- Ten clients connect. Then the first one leaves, and another connects before the next
update. -/
theorem refused_early :
    ¬ ∀ ls s k k' t, Run Step (fun _ _ => True) (.alive (State.construct listens)) ls (.alive s) →
      Step (.alive s) (.update k k') (.alive t) → t.refused ≠ s.refused →
        s.live = maxConnectionsTcpServer := by
  intro h
  let ls : List Event := (List.range 10).flatMap (fun c =>
    [.connection c .accepted, .update listens listens]) ++
      [.connection 0 .closed, .connection 10 .accepted]
  obtain ⟨s, hs, hrefused, hlive⟩ : ∃ s, exec step (.alive (State.construct listens)) ls =
      some (.alive s) ∧ (s.update listens listens).refused ≠ s.refused ∧ s.live = 9 :=
    ⟨_, rfl, by decide, by decide⟩
  have hfull := h ls s listens listens _ (run_of_exec (fun _ _ _ => trivial) hs) rfl hrefused
  rw [hlive] at hfull
  cases hfull

end StLib.Ethernet.Sessions
