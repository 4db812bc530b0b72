import StLib.Base.LinkedCopies
import StLib.Communication.PacketRoundTrip

/-! # Packets that the MDMA builds and parses

`MdmaPacket.hpp`: the constructor lays two lists of nodes, `build` and `parse` relink them
and give them to the MDMA. A list is executed later, and not always before the next call is
made. Memory is one; the nodes have their own. -/
namespace StLib.Mdma.Packets

open StLib.Base.Bytes StLib.Base.FixedLayout StLib.Base.LinkedCopies StLib.Base.Runs
open StLib.Communication.Packets StLib.Communication.PacketRoundTrip

/-- The pointers of a packet to its nodes. -/
inductive NodeId
  | build (i : Nat)
  | parse (i : Nat)
  | buildTransfer
  | parseTransfer
deriving DecidableEq

abbrev Table := NodeId → Node NodeId

/-- An `MdmaPacket`: its id and where that is, the variables it is made of, its buffer. All
of them are objects of their own. -/
structure MdmaPacket where
  id : BitVec 16
  idAddress : Nat
  fields : List Region
  buffer : Nat
  nonempty : fields ≠ []
  positive : ∀ r ∈ fields, 0 < r.size
  apart : (⟨idAddress, 2⟩ :: fields).Pairwise Region.Apart
  outside : ∀ r ∈ (⟨idAddress, 2⟩ :: fields : List Region),
    Apart r.address r.size buffer (total (⟨idAddress, 2⟩ :: fields))

namespace MdmaPacket

/-- `value_pointers`. -/
def values (p : MdmaPacket) : List Region := ⟨p.idAddress, 2⟩ :: p.fields

def size (p : MdmaPacket) : Nat := total p.values

/-- `nodes_size`. -/
def nodesSize (p : MdmaPacket) : Nat := 2 * (p.fields.length + 1) + 2

end MdmaPacket

namespace Table

/-- A node constructed in its place. -/
def new (i : NodeId) (c : Copy) (t : Table) : Table := Function.update t i { copy := c, next := none }

def setNext (i : NodeId) (next : Option NodeId) (t : Table) : Table :=
  Function.update t i { t i with next }

def setDestination (i : NodeId) (destination : Nat) (t : Table) : Table :=
  Function.update t i { t i with copy := { (t i).copy with destination } }

def setSource (i : NodeId) (source : Nat) (t : Table) : Table :=
  Function.update t i { t i with copy := { (t i).copy with source } }

section Apply

variable (t : Table) (i j : NodeId)

@[simp]
theorem new_apply (c : Copy) : new i c t j = if j = i then { copy := c, next := none } else t j :=
  Function.update_apply ..

@[simp]
theorem setNext_apply (next : Option NodeId) :
    setNext i next t j = if j = i then { t i with next } else t j := Function.update_apply ..

@[simp]
theorem setDestination_apply (destination : Nat) : setDestination i destination t j =
    if j = i then { t i with copy := { (t i).copy with destination } } else t j :=
  Function.update_apply ..

@[simp]
theorem setSource_apply (source : Nat) : setSource i source t j =
    if j = i then { t i with copy := { (t i).copy with source } } else t j :=
  Function.update_apply ..

end Apply

/-- The node before, if there is one, goes on to this one. -/
def link (prev : Option NodeId) (i : NodeId) (t : Table) : Table :=
  match prev with
  | none => t
  | some k => t.setNext k (some i)

/-- The two loops of the constructor; `prev` is `prev_node`. -/
def place (node : Nat → NodeId) (make : Nat → Region → Copy) :
    Nat → Nat → Option NodeId → List Region → Table → Table
  | _, _, _, [], t => t
  | idx, offset, prev, r :: rest, t =>
    place node make (idx + 1) (offset + r.size) (some (node idx)) rest
      ((t.new (node idx) (make offset r)).link prev (node idx))

end Table

namespace MdmaPacket

variable (p : MdmaPacket)

/-- The node that copies a variable into the buffer. -/
def buildCopy (offset : Nat) (r : Region) : Copy := ⟨r.address, p.buffer + offset, r.size⟩

/-- The node that copies a variable out of the buffer. -/
def parseCopy (offset : Nat) (r : Region) : Copy := ⟨p.buffer + offset, r.address, r.size⟩

/-- The nodes after the constructor. -/
def construct (t : Table) : Table :=
  let t := t.place .build p.buildCopy 0 0 none p.values
  let t := t.place .parse p.parseCopy 0 0 none p.values
  let t := t.new .buildTransfer ⟨p.buffer, 0, p.size⟩
  t.new .parseTransfer ⟨p.buffer, p.buffer, p.size⟩

def setBuildDestination (externalBuffer : Option Nat) (t : Table) : Table :=
  match externalBuffer with
  | some d => (t.setDestination .buildTransfer d).setNext (.build p.fields.length) (some .buildTransfer)
  | none => t.setNext (.build p.fields.length) none

def setParseSource (externalBuffer : Option Nat) (t : Table) : Table × NodeId :=
  match externalBuffer with
  | some a => ((t.setSource .parseTransfer a).setNext .parseTransfer (some (.parse 0)), .parseTransfer)
  | none => (t.setNext (.parse 0) none, .parse 0)

end MdmaPacket

/-- A call of one of the overloads of `build` or of `parse`. -/
inductive Call
  | build (destinationAddress : Option Nat)
  | parse (data : Option Nat)
deriving DecidableEq

/-- The nodes after a call, and the list it gives to the MDMA. -/
def Call.give (p : MdmaPacket) : Call → Table → Table × NodeId
  | build d, t => (p.setBuildDestination d t, .build 0)
  | parse a, t => MdmaPacket.setParseSource a t

/-- `pending` holds the lists that the MDMA has been given and has not executed. -/
structure State where
  table : Table
  memory : Memory
  pending : List (Call × NodeId) := []

/-- `write` is what other code does to the memory. -/
inductive Event
  | call (c : Call)
  | complete (k : Nat)
  | write (m : Memory)

/-- An address that a call is given is not inside of the packet. -/
def Call.IsExternal (p : MdmaPacket) : Call → Prop
  | build (some a) => Apart p.idAddress 2 a p.size
  | parse (some a) => Apart p.idAddress 2 a p.size
  | _ => True

inductive Step (p : MdmaPacket) : State → Event → State → Prop
  | call (s : State) (c : Call) (h : c.IsExternal p) :
      Step p s (.call c)
        { s with table := (c.give p s.table).1, pending := s.pending ++ [(c, (c.give p s.table).2)] }
  | complete (s : State) (k : Nat) (c : Call) (head : NodeId) (h : s.pending[k]? = some (c, head)) :
      Step p s (.complete k)
        { s with
          memory := execute s.table p.nodesSize (some head) s.memory
          pending := s.pending.eraseIdx k }
  | write (s : State) (m : Memory) (h : read m p.idAddress 2 = read s.memory p.idAddress 2) :
      Step p s (.write m) { s with memory := m }

/-- The packet once it is constructed. -/
def init (p : MdmaPacket) (t : Table) (m : Memory) : State where
  table := p.construct t
  memory a := if a = p.idAddress then lowByte p.id else if a = p.idAddress + 1 then highByte p.id else m a

/-! ## Plain packets -/

def fieldOf (m : Memory) (r : Region) : Field := .value r.size (blockAt (m.advance r.address) r.size)

/-- The `StackPacket` of the same id and variables. -/
def plain (p : MdmaPacket) (m garbage : Memory) : Packet :=
  construct .stack p.id (p.fields.map (fieldOf m)) (fun _ => m) garbage

/-- What a call leaves in memory is what the plain packet makes of it: the bytes it builds
are at the address that is returned, and the variables are what it parses. -/
def Agrees (p : MdmaPacket) (before after : Memory) : Call → Prop
  | .build d => ∀ garbage garbage', ((plain p before garbage).build garbage').buffer =
      some (read after (d.getD p.buffer) p.size)
  | .parse a => ∀ garbage, (plain p after garbage).fields =
      ((plain p before garbage).parse (before.advance (a.getD p.buffer))).fields

/-- A list that is executed does what its call was for. -/
def Right (p : MdmaPacket) (s : State) : Event → Prop
  | .complete k => ∀ c head t, s.pending[k]? = some (c, head) → Step p s (.complete k) t →
      Agrees p s.memory t.memory c
  | _ => True

/-- Nothing is parsed without an address. When a list is executed the links are still those
of its call, and what is parsed carries the id of the packet. -/
def Meets (p : MdmaPacket) (s : State) : Event → Prop
  | .call c => c ≠ .parse none
  | .complete k => ∀ c head, s.pending[k]? = some (c, head) → (c.give p s.table).1 = s.table ∧
      ∀ a, c = .parse (some a) → read s.memory a 2 = bytesOfWord p.id
  | .write _ => True

/-! ## The nodes -/

/-- What the constructor lays and no call takes away. -/
structure Wired (p : MdmaPacket) (t : Table) : Prop where
  build : ∃ last, Chain t .build last 0 (gather p.buffer p.values)
  parse : Chain t .parse none 0 (scatter p.buffer p.values)
  buildTransfer : (t .buildTransfer).copy.source = p.buffer ∧ (t .buildTransfer).copy.size = p.size ∧
    (t .buildTransfer).next = none
  parseTransfer : (t .parseTransfer).copy.destination = p.buffer ∧
    (t .parseTransfer).copy.size = p.size

section Place

variable {node : Nat → NodeId} {make : Nat → Region → Copy} {rs : List Region} {idx offset : Nat}
  {prev : Option NodeId} {t : Table} {i : NodeId}

/-- The loop leaves the other nodes as they are. -/
theorem place_other (hnode : ∀ j, idx ≤ j → i ≠ node j) (hprev : prev ≠ some i) :
    t.place node make idx offset prev rs i = t i := by
  induction rs generalizing idx offset prev t with
  | nil => rfl
  | cons r rest ih =>
    have hidx := hnode idx (Nat.le_refl idx)
    rw [Table.place, ih (fun j hj => hnode j (by omega)) (by simpa using Ne.symm hidx)]
    cases prev with
    | none => simp [Table.link, hidx]
    | some k =>
      have hk : i ≠ k := fun he => hprev (by rw [he])
      simp [Table.link, hk, hidx]

/-- The node before is linked to the first one. -/
theorem place_prev (r : Region) (hnode : ∀ j, idx ≤ j → i ≠ node j) :
    t.place node make idx offset (some i) (r :: rs) i = { t i with next := some (node idx) } := by
  have hidx := hnode idx (Nat.le_refl idx)
  rw [Table.place, place_other (fun j hj => hnode j (by omega)) (by simpa using Ne.symm hidx)]
  simp [Table.link, hidx]

/-- The copies of the nodes that the loop lays. -/
def copies (make : Nat → Region → Copy) : Nat → List Region → List Copy
  | _, [] => []
  | offset, r :: rest => make offset r :: copies make (offset + r.size) rest

theorem place_chain (hinj : Function.Injective node) (hprev : ∀ j, idx ≤ j → prev ≠ some (node j)) :
    Chain (t.place node make idx offset prev rs) node none idx (copies make offset rs) := by
  induction rs generalizing idx offset prev t with
  | nil => trivial
  | cons r rest ih =>
    have hne : ∀ j, idx + 1 ≤ j → node idx ≠ node j := fun j hj he => absurd (hinj he) (by omega)
    have hlaid : (t.new (node idx) (make offset r)).link prev (node idx) (node idx) =
        { copy := make offset r, next := none } := by
      cases prev with
      | none => simp [Table.link]
      | some k =>
        have hk : node idx ≠ k := fun he => hprev idx (Nat.le_refl idx) (by rw [he])
        simp [Table.link, hk]
    have hrest : Chain (t.place node make idx offset prev (r :: rest)) node none (idx + 1)
        (copies make (offset + r.size) rest) :=
      ih fun j hj he => hne j hj (Option.some.inj he)
    rw [copies]
    cases rest with
    | nil => exact hlaid
    | cons r' rest =>
      refine ⟨?_, hrest⟩
      rw [Table.place, place_prev r' hne, hlaid]

end Place

variable {p : MdmaPacket} {t : Table} {s : State} {c : Call}

theorem copies_build (p : MdmaPacket) (offset : Nat) (rs : List Region) :
    copies p.buildCopy offset rs = gather (p.buffer + offset) rs := by
  induction rs generalizing offset with
  | nil => rfl
  | cons r rest ih =>
    rw [copies, ih, gather, Nat.add_assoc]
    rfl

theorem copies_parse (p : MdmaPacket) (offset : Nat) (rs : List Region) :
    copies p.parseCopy offset rs = scatter (p.buffer + offset) rs := by
  induction rs generalizing offset with
  | nil => rfl
  | cons r rest ih =>
    rw [copies, ih, scatter, Nat.add_assoc]
    rfl

theorem wired_construct (p : MdmaPacket) (t : Table) : Wired p (p.construct t) := by
  have hbuild : Chain (t.place .build p.buildCopy 0 0 none p.values) .build none 0
      (copies p.buildCopy 0 p.values) := place_chain (fun _ _ h => NodeId.build.inj h) nofun
  have hparse : Chain ((t.place .build p.buildCopy 0 0 none p.values).place .parse p.parseCopy 0 0 none
      p.values) .parse none 0 (copies p.parseCopy 0 p.values) :=
    place_chain (fun _ _ h => NodeId.parse.inj h) nofun
  rw [copies_build] at hbuild
  rw [copies_parse] at hparse
  refine ⟨⟨none, hbuild.congr fun j _ _ => ?_⟩, hparse.congr fun j _ _ => ?_, ?_, ?_⟩
  · have hother : (t.place .build p.buildCopy 0 0 none p.values).place .parse p.parseCopy 0 0 none
        p.values (.build j) = t.place .build p.buildCopy 0 0 none p.values (.build j) :=
      place_other nofun nofun
    simp [MdmaPacket.construct, hother]
  · simp [MdmaPacket.construct]
  · simp [MdmaPacket.construct]
  · simp [MdmaPacket.construct]

/-! ## A call -/

/-- The link behind the last node of `build`. -/
def lastLink (d : Option Nat) : Option NodeId := d.map fun _ => .buildTransfer

theorem setBuildDestination_last (p : MdmaPacket) (d : Option Nat) (t : Table) :
    p.setBuildDestination d t (.build p.fields.length) =
      { t (.build p.fields.length) with next := lastLink d } := by
  cases d with
  | none => simp [MdmaPacket.setBuildDestination, lastLink]
  | some d => simp [MdmaPacket.setBuildDestination, lastLink]

theorem setBuildDestination_transfer (p : MdmaPacket) (d : Option Nat) (t : Table) :
    p.setBuildDestination d t .buildTransfer =
      { t .buildTransfer with
        copy := { (t .buildTransfer).copy with destination := d.getD (t .buildTransfer).copy.destination } } := by
  cases d with
  | none => simp [MdmaPacket.setBuildDestination]
  | some d => simp [MdmaPacket.setBuildDestination]

theorem setBuildDestination_other (d : Option Nat) {i : NodeId} (hlast : i ≠ .build p.fields.length)
    (htransfer : i ≠ .buildTransfer) : p.setBuildDestination d t i = t i := by
  cases d with
  | none => simp [MdmaPacket.setBuildDestination, hlast]
  | some d => simp [MdmaPacket.setBuildDestination, hlast, htransfer]

/-- The list of `build` goes on where it was last told to. -/
theorem Wired.buildChain (h : Wired p t) (d : Option Nat) :
    Chain (p.setBuildDestination d t) .build (lastLink d) 0 (gather p.buffer p.values) := by
  obtain ⟨last, hchain⟩ := h.build
  have hlen : (gather (p.buffer + 2) p.fields).length = p.fields.length := length_gather ..
  refine hchain.relink (fun j _ hj => ?_) ?_
  · have hlt : j < p.fields.length := by
      rw [← hlen]
      exact Nat.zero_add (gather (p.buffer + 2) p.fields).length ▸ hj
    exact setBuildDestination_other d (fun he => absurd (NodeId.build.inj he) (Nat.ne_of_lt hlt)) nofun
  · have hlast : 0 + (gather (p.buffer + 2) p.fields).length = p.fields.length := by
      rw [hlen, Nat.zero_add]
    show p.setBuildDestination d t (.build (0 + (gather (p.buffer + 2) p.fields).length)) = _
    rw [hlast]
    exact setBuildDestination_last p d t

theorem Wired.give (h : Wired p t) (hc : c ≠ .parse none) : Wired p (c.give p t).1 := by
  cases c with
  | build d =>
    refine ⟨⟨_, h.buildChain d⟩, h.parse.congr fun j _ _ => ?_, ?_, ?_⟩
    · exact setBuildDestination_other d nofun nofun
    · have hnode : (Call.give p (.build d) t).1 .buildTransfer = _ := setBuildDestination_transfer p d t
      rw [hnode]
      exact h.buildTransfer
    · have hnode : (Call.give p (.build d) t).1 .parseTransfer = t .parseTransfer :=
        setBuildDestination_other d nofun nofun
      rw [hnode]
      exact h.parseTransfer
  | parse a =>
    cases a with
    | none => exact absurd rfl hc
    | some a =>
      obtain ⟨last, hchain⟩ := h.build
      have hparse := h.parseTransfer
      have hbuild := h.buildTransfer
      refine ⟨⟨last, hchain.congr fun j _ _ => ?_⟩, h.parse.congr fun j _ _ => ?_, ?_, ?_⟩
      · simp [Call.give, MdmaPacket.setParseSource]
      · simp [Call.give, MdmaPacket.setParseSource]
      · simpa [Call.give, MdmaPacket.setParseSource] using hbuild
      · simpa [Call.give, MdmaPacket.setParseSource] using hparse

/-- The list that a call gives to the MDMA. -/
def Call.copies (p : MdmaPacket) : Call → List Copy
  | build d => gather p.buffer p.values ++ (d.map fun d => ⟨p.buffer, d, p.size⟩).toList
  | parse a => ⟨a.getD 0, p.buffer, p.size⟩ :: scatter p.buffer p.values

theorem Wired.path (h : Wired p t) (hc : c ≠ .parse none) :
    Path (c.give p t).1 (some (c.give p t).2) (c.copies p) := by
  cases c with
  | build d =>
    refine (h.buildChain d).path ?_
    cases d with
    | none => exact .nil
    | some d =>
      obtain ⟨hsource, hsize, hnext⟩ := h.buildTransfer
      have hnode : p.setBuildDestination (some d) t .buildTransfer =
          { copy := ⟨p.buffer, d, p.size⟩, next := none } := by
        rw [setBuildDestination_transfer, ← hsource, ← hsize, ← hnext]
        rfl
      have hpath : Path (p.setBuildDestination (some d) t) (some .buildTransfer)
          [(p.setBuildDestination (some d) t .buildTransfer).copy] := .cons (by rw [hnode]; exact .nil)
      rwa [hnode] at hpath
  | parse a =>
    cases a with
    | none => exact absurd rfl hc
    | some a =>
      obtain ⟨hdestination, hsize⟩ := h.parseTransfer
      have hnode : (Call.give p (.parse (some a)) t).1 .parseTransfer =
          { copy := ⟨a, p.buffer, p.size⟩, next := some (.parse 0) } := by
        simp [Call.give, MdmaPacket.setParseSource, hdestination, hsize]
      have hchain : Path (Call.give p (.parse (some a)) t).1 (some (.parse 0))
          (scatter p.buffer p.values ++ []) := (h.give hc).parse.path .nil
      rw [List.append_nil] at hchain
      have hpath : Path (Call.give p (.parse (some a)) t).1 (some .parseTransfer)
          (((Call.give p (.parse (some a)) t).1 .parseTransfer).copy :: scatter p.buffer p.values) :=
        .cons (by rw [hnode]; exact hchain)
      rwa [hnode] at hpath

/-! ## What a list leaves in memory -/

theorem length_copies (p : MdmaPacket) (c : Call) : (c.copies p).length ≤ p.nodesSize := by
  have hvalues : p.values.length = p.fields.length + 1 := rfl
  unfold MdmaPacket.nodesSize
  cases c with
  | build d =>
    have hlast : (d.map fun d => (⟨p.buffer, d, p.size⟩ : Copy)).toList.length ≤ 1 := by
      cases d <;> simp
    rw [Call.copies, List.length_append, length_gather, hvalues]
    omega
  | parse a =>
    rw [Call.copies, List.length_cons, length_scatter, hvalues]
    omega

/-- A `StackPacket` of values has its buffer in it. -/
theorem ownsBuffer_plain (p : MdmaPacket) (m : Memory) :
    ownsBuffer .stack (p.fields.map (fieldOf m)) = true := by
  obtain ⟨r, hr⟩ := List.exists_mem_of_ne_nil p.fields p.nonempty
  have hno : hasContainer (p.fields.map (fieldOf m)) = false := by
    simp [hasContainer, fieldOf, Field.isContainer]
  have htotal : bufferLength (p.fields.map (fieldOf m)) = total p.fields := by
    rw [bufferLength, hno, if_neg (by decide), totalSizeof, List.map_map]
    rfl
  have hle : r.size ≤ total p.fields := List.single_le_sum (by simp) _ (List.mem_map_of_mem hr)
  have hpos : total p.fields ≠ 0 := by
    have := p.positive r hr
    omega
  simp [ownsBuffer, htotal, hpos]

theorem frame_plain {m : Memory} (garbage : Memory) (hid : read m p.idAddress 2 = bytesOfWord p.id) :
    frame (plain p m garbage) = p.values.flatMap fun r => read m r.address r.size := by
  have hframe : frame (plain p m garbage) =
      bytesOfWord p.id ++ (p.fields.map (fieldOf m)).flatMap (copyTo .stack fun _ => m) := by
    rw [frame, plain, construct, if_pos (ownsBuffer_plain p m)]
    rfl
  rw [hframe, ← hid, List.flatMap_map]
  rfl

theorem build_plain (p : MdmaPacket) (m garbage garbage' : Memory) :
    ((plain p m garbage).build garbage').buffer = some (frame (plain p m garbage)) := by
  have hsound : Sound (plain p m garbage) := sound_construct .stack p.id _ _ garbage
  have howns : ownsBuffer (plain p m garbage).kind (plain p m garbage).fields = true := by
    rw [plain, construct, if_pos (ownsBuffer_plain p m)]
    exact ownsBuffer_plain p m
  have hfits := fits hsound garbage'
  obtain ⟨hsize, buffer, hbuffer, hlen⟩ := hsound howns
  have halloc : (plain p m garbage).allocate garbage' = buffer := by
    rw [Packet.allocate, hbuffer]
    exact if_pos howns
  have hget : (plain p m garbage).getSize = buffer.length := by
    rw [Packet.getSize, if_pos howns, hsize, hlen]
  refine congrArg some (hfits.bytes.trans ?_)
  rw [halloc, hget, List.drop_length, List.append_nil]

/-- What is built is at the address that is returned. -/
theorem read_build (p : MdmaPacket) (d : Option Nat) (m : Memory) :
    read (runAll (Call.copies p (.build d)) m) (d.getD p.buffer) p.size =
      p.values.flatMap fun r => read m r.address r.size := by
  have houtside : ∀ r ∈ p.values, Apart r.address r.size p.buffer (total p.values) := p.outside
  rw [← read_gather m houtside, Call.copies, runAll_append]
  cases d with
  | none => rfl
  | some d => exact read_run ⟨p.buffer, d, p.size⟩ _

/-- The variables, and the id, are what was at the address. -/
theorem read_parse (p : MdmaPacket) (a : Nat) (m : Memory) :
    (p.values.map fun r => read (runAll (Call.copies p (.parse (some a))) m) r.address r.size) =
      slices m a p.values := by
  have hapart : p.values.Pairwise Region.Apart := p.apart
  rw [Call.copies, runAll, read_scatter _ hapart p.outside]
  exact slices_run ⟨a, p.buffer, p.size⟩ m (Nat.le_refl _)

/-- Parsing values is cutting what is parsed. -/
theorem parseFields_slices (objects : Objects) {m m' : Memory} (before : Memory) {a : Nat} {rs : List Region}
    (h : (rs.map fun r => read m' r.address r.size) = slices m a rs) :
    (Packet.parseFields .stack (m.advance a) objects (rs.map (fieldOf before))).1 =
      rs.map (fieldOf m') := by
  induction rs generalizing a with
  | nil => rfl
  | cons r rs ih =>
    obtain ⟨hfirst, hrest⟩ := List.cons.inj h
    have hnext : (m.advance a).advance r.size = m.advance (a + r.size) :=
      funext fun i => congrArg m (Nat.add_assoc a r.size i).symm
    have hfield : fieldOf m' r = .value r.size (blockAt (m.advance a) r.size) :=
      congrArg (Field.value r.size) (Subtype.ext hfirst)
    have htail := ih hrest
    rw [← hnext] at htail
    rw [List.map_cons, List.map_cons, ← htail, hfield]
    rfl

/-! ## Every run -/

/-- In a run that meets the condition: the nodes are wired, the id is in its place, and the
lists that wait are those of their calls. -/
structure Valid (p : MdmaPacket) (s : State) : Prop where
  wired : Wired p s.table
  id : read s.memory p.idAddress 2 = bytesOfWord p.id
  pending : ∀ c head, (c, head) ∈ s.pending →
    c ≠ .parse none ∧ c.IsExternal p ∧ ∀ t, (c.give p t).2 = head

theorem Valid.init (p : MdmaPacket) (t : Table) (m : Memory) : Valid p (init p t m) := by
  refine ⟨wired_construct p t, ?_, nofun⟩
  simp [Packets.init, Base.LinkedCopies.read, Memory.advance, Memory.bytes, bytesOfWord, List.range_succ]

theorem head_eq (p : MdmaPacket) (c : Call) (t t' : Table) : (c.give p t).2 = (c.give p t').2 := by
  cases c with
  | build d => rfl
  | parse a => cases a <;> rfl

/-- A list that is executed with the links of its call runs the copies of the call. -/
theorem Valid.execute (h : Valid p s) {head : NodeId} (hmem : (c, head) ∈ s.pending)
    (hlinks : (c.give p s.table).1 = s.table) :
    execute s.table p.nodesSize (some head) s.memory = runAll (c.copies p) s.memory := by
  obtain ⟨hc, -, hhead⟩ := h.pending c head hmem
  have hpath := h.wired.path hc
  rw [hlinks, hhead] at hpath
  exact hpath.execute_eq (length_copies p c) s.memory

theorem fields_plain (p : MdmaPacket) (m garbage : Memory) :
    (plain p m garbage).kind = .stack ∧ (plain p m garbage).fields = p.fields.map (fieldOf m) := by
  rw [plain, construct, if_pos (ownsBuffer_plain p m)]
  exact ⟨rfl, rfl⟩

theorem parse_plain (p : MdmaPacket) {before after : Memory} (garbage : Memory) {a : Nat}
    (h : (p.values.map fun r => read after r.address r.size) = slices before a p.values) :
    (plain p after garbage).fields = ((plain p before garbage).parse (before.advance a)).fields := by
  obtain ⟨hkind, hfields⟩ := fields_plain p before garbage
  have hparse : ((plain p before garbage).parse (before.advance a)).fields =
      (Packet.parseFields (plain p before garbage).kind ((before.advance a).advance 2)
        (plain p before garbage).objects (plain p before garbage).fields).1 := rfl
  have hbehind : (before.advance a).advance 2 = before.advance (a + 2) :=
    funext fun i => congrArg before (Nat.add_assoc a 2 i).symm
  rw [hparse, hkind, hfields, hbehind, (fields_plain p after garbage).2]
  exact (parseFields_slices _ before (List.cons.inj h).2).symm

theorem agrees_of_links (h : Valid p s) (hc : c ≠ .parse none) :
    Agrees p s.memory (runAll (c.copies p) s.memory) c := by
  cases c with
  | build d =>
    intro garbage garbage'
    rw [build_plain, frame_plain garbage h.id, read_build]
  | parse a =>
    cases a with
    | none => exact absurd rfl hc
    | some a => exact fun garbage => parse_plain p garbage (read_parse p a s.memory)

/-- The id stays in its place. -/
theorem read_id (h : Valid p s) (hc : c ≠ .parse none) (he : c.IsExternal p)
    (hid : ∀ a, c = .parse (some a) → read s.memory a 2 = bytesOfWord p.id) :
    read (runAll (c.copies p) s.memory) p.idAddress 2 = bytesOfWord p.id := by
  cases c with
  | build d =>
    have hgather : read (runAll (gather p.buffer p.values) s.memory) p.idAddress 2 =
        bytesOfWord p.id := (read_gather_apart s.memory (p.outside _ List.mem_cons_self)).trans h.id
    rw [Call.copies, runAll_append]
    cases d with
    | none => exact hgather
    | some d => exact (read_run_apart ⟨p.buffer, d, p.size⟩ _ he).trans hgather
  | parse a =>
    cases a with
    | none => exact absurd rfl hc
    | some a => exact (List.cons.inj (read_parse p a s.memory)).1.trans (hid a rfl)

theorem Valid.step {e : Event} {t : State} (h : Valid p s) (hm : Meets p s e) (hs : Step p s e t) :
    Valid p t := by
  cases hs with
  | call c he =>
    refine ⟨h.wired.give hm, h.id, fun c' head hmem => ?_⟩
    rcases List.mem_append.mp hmem with hmem | hmem
    · exact h.pending c' head hmem
    · cases List.mem_singleton.mp hmem
      exact ⟨hm, he, fun t => head_eq p c t s.table⟩
  | complete k c head hk =>
    have hmem := List.mem_of_getElem? hk
    obtain ⟨hlinks, hid⟩ := hm c head hk
    obtain ⟨hc, he, -⟩ := h.pending c head hmem
    refine ⟨h.wired, ?_, fun c' head' hmem' => h.pending c' head' (List.mem_of_mem_eraseIdx hmem')⟩
    show read (Base.LinkedCopies.execute s.table p.nodesSize (some head) s.memory) p.idAddress 2 = _
    rw [h.execute hmem hlinks]
    exact read_id h hc he hid
  | write m hwrite => exact ⟨h.wired, hwrite.trans h.id, h.pending⟩

theorem Valid.right {e : Event} (h : Valid p s) (hm : Meets p s e) : Right p s e := by
  cases e with
  | call c => trivial
  | write m => trivial
  | complete k =>
    intro c head t hk hs
    have hmem := List.mem_of_getElem? hk
    cases hs with
    | complete _ c' head' hk' =>
      cases hk.symm.trans hk'
      show Agrees p s.memory (Base.LinkedCopies.execute s.table p.nodesSize (some head) s.memory) c
      rw [h.execute hmem (hm c head hk).1]
      exact agrees_of_links h (h.pending c head hmem).1

/-- **Packets.** In a run whose steps meet the condition every list that is executed does
what a plain packet would. -/
theorem packets_agree (p : MdmaPacket) (t : Table) (m : Memory) {ls : List Event}
    (r : Run (Step p) (Meets p) (init p t m) ls s) : Run (Step p) (Right p) (init p t m) ls s := by
  suffices hboth : Valid p s ∧ Run (Step p) (Right p) (init p t m) ls s from hboth.2
  induction r with
  | nil => exact ⟨.init p t m, .nil _⟩
  | snoc _ hm hs ih => exact ⟨ih.1.step hm hs, .snoc ih.2 (ih.1.right hm) hs⟩

/-- A call leaves nothing to relink for itself: one whose list is executed before the next
call is made meets the condition on the links. -/
theorem give_give (p : MdmaPacket) (c : Call) (t : Table) :
    (c.give p (c.give p t).1).1 = (c.give p t).1 := by
  funext j
  rcases c with (_ | d) | (_ | a) <;>
    simp only [Call.give, MdmaPacket.setBuildDestination, MdmaPacket.setParseSource, Table.setNext_apply,
      Table.setDestination_apply, Table.setSource_apply] <;>
    grind

/-- One byte between an id and a buffer. -/
def small : MdmaPacket where
  id := 7
  idAddress := 0
  fields := [⟨2, 1⟩]
  buffer := 3
  nonempty := by decide
  positive := by decide
  apart := List.pairwise_pair.mpr (Or.inl (by decide))
  outside := List.forall_mem_cons.mpr ⟨Or.inl (by decide), List.forall_mem_singleton.mpr (Or.inl (by decide))⟩

def blank : Table := fun _ => { copy := ⟨0, 0, 0⟩, next := none }

theorem packets_agree_small : ∃ s, Run (Step small) (Right small) (init small blank fun _ => 0)
    [.call (.build none), .complete 0] s := by
  refine ⟨_, packets_agree small blank (fun _ => 0) (.snoc (.snoc (.nil _) (by nofun) (.call _ _ trivial))
    ?_ (.complete _ 0 (.build none) (.build 0) rfl))⟩
  intro c head hk
  cases hk
  exact ⟨give_give small (.build none) _, nofun⟩

/-- Nothing but the id is parsed without an address. -/
theorem null_parse_writes_id : ¬ ∀ p t m ls s, Run (Step p) (fun _ _ => True) (init p t m) ls s →
    ∀ e, Right p s e := by
  intro h
  have hright := h small blank (fun a => if a = 2 then 0 else 9) _ _
    (.snoc (.nil _) trivial (.call _ (.parse none) trivial)) (.complete 0) (.parse none) (.parse 0) _ rfl
    (.complete _ 0 (.parse none) (.parse 0) rfl) (fun _ => 0)
  exact absurd hright (by decide)

end StLib.Mdma.Packets
