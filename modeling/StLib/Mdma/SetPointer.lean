import StLib.Mdma.Packets

/-! # Pointers that are exchanged

`build`, `parse` and `set_pointer` as `Packet` offers them. A call is the copies it makes:
one list of them for each `PacketValue`, or for each node. -/
namespace StLib.Mdma.SetPointer

open StLib.Base.Bytes StLib.Base.LinkedCopies StLib.Mdma.Packets

/-! ## Packet values -/

/-- An object that is copied as it is, or one that says where the blocks are that are
copied: a container, a string, an array of pointers. -/
inductive ValueType
  | plain (size : Nat)
  | indirect (blocks : Memory → Nat → List Region)

structure PacketValue where
  type : ValueType
  src : Nat

namespace PacketValue

variable (v : PacketValue) (m : Memory)

def blocks : List Region :=
  match v.type with
  | .plain size => [⟨v.src, size⟩]
  | .indirect blocks => blocks m v.src

def getSize : Nat := total (v.blocks m)

def copyTo (data : Nat) : List Copy := gather data (v.blocks m)

def parse (data : Nat) : List Copy := scatter data (v.blocks m)

def setPointer (pointer : Nat) : PacketValue := { v with src := pointer }

end PacketValue

/-! ## Packets -/

/-- A `StackPacket` or a `HeapPacket`, or an `MdmaPacket` with its `value_pointers`. -/
inductive Packet
  | plain (idAddress : Nat) (values : List PacketValue)
  | mdma (packet : MdmaPacket) (valuePointers : List Nat) (table : Table)

/-- The loop over `values`. The size is asked for after the value was copied. -/
def forEach (access : PacketValue → Memory → Nat → List Copy) :
    Memory → Nat → List PacketValue → List (List Copy)
  | _, _, [] => []
  | m, data, v :: values =>
    let copies := access v m data
    let m := runAll copies m
    copies :: forEach access m (data + v.getSize m) values

/-- Where the loop is behind values. -/
def passed (access : PacketValue → Memory → Nat → List Copy) :
    Memory → Nat → List PacketValue → Memory × Nat
  | m, data, [] => (m, data)
  | m, data, v :: values =>
    let m := runAll (access v m data) m
    passed access m (data + v.getSize m) values

/-- `MDMA::transfer_list`, until it is done. -/
def transferList (p : MdmaPacket) (given : Table × NodeId) : List (List Copy) :=
  (trace given.1 p.nodesSize (some given.2)).map fun c => [c]

namespace Packet

/-- `buffer` is where a plain packet has its buffer when it is built. -/
def build (m : Memory) (buffer : Nat) : Packet → Packet × List (List Copy)
  | plain idAddress values =>
    let copies : List Copy := [⟨idAddress, buffer, 2⟩]
    (plain idAddress values, copies :: forEach PacketValue.copyTo (runAll copies m) (buffer + 2) values)
  | mdma p valuePointers t =>
    let given := (Call.build none).give p t
    (mdma p valuePointers given.1, transferList p given)

def parse (m : Memory) (data : Nat) : Packet → Packet × List (List Copy)
  | plain idAddress values => (plain idAddress values, forEach PacketValue.parse m (data + 2) values)
  | mdma p valuePointers t =>
    let given := (Call.parse (some data)).give p t
    (mdma p valuePointers given.1, transferList p given)

/-- `value_pointers` begins with the pointer to the id. -/
def setPointer (index pointer : Nat) : Packet → Packet
  | plain idAddress values => plain idAddress (values.modify index fun v => v.setPointer pointer)
  | mdma p valuePointers t => mdma p (valuePointers.set index pointer) t

end Packet

inductive Constructed : Packet → Prop
  | plain (idAddress : Nat) (values : List PacketValue) : Constructed (.plain idAddress values)
  | mdma (p : MdmaPacket) (t : Table) :
      Constructed (.mdma p (p.values.map Region.address) (p.construct t))

inductive Op
  | build (m : Memory) (buffer : Nat)
  | parse (m : Memory) (data : Nat)
  | setPointer (index pointer : Nat)

def step (x : Packet) : Op → Packet
  | .build m buffer => (x.build m buffer).1
  | .parse m data => (x.parse m data).1
  | .setPointer index pointer => x.setPointer index pointer

def run (x : Packet) (ops : List Op) : Packet := ops.foldl step x

/-! ## Fields -/

namespace Packet

/-- The fields, as the pointers of the packet have them. -/
def values : Packet → List PacketValue
  | plain _ values => values
  | mdma p valuePointers _ =>
    List.zipWith (fun r src => ⟨.plain r.size, src⟩) p.fields valuePointers.tail

def idAddress : Packet → Nat
  | plain idAddress _ => idAddress
  | mdma p _ _ => p.idAddress

/-- What the fields are copied to, or from. An `MdmaPacket` transfers what it parses to its
buffer, and then the id. -/
def frame (x : Packet) (data : Nat) : Nat :=
  match x with
  | plain .. => data
  | mdma p _ _ => p.buffer

/-- What `parse` copies before the fields. -/
def lead : Packet → Nat
  | plain .. => 0
  | mdma .. => 2

def IsPlain : Packet → Prop
  | plain .. => True
  | mdma .. => False

end Packet

/-- A build reads the value at `p` as the field `i`, and a parse writes it. -/
structure Serves (x : Packet) (i p : Nat) : Prop where
  reads : ∀ m buffer v, x.values[i]? = some v →
    let here := passed PacketValue.copyTo (runAll [⟨x.idAddress, x.frame buffer, 2⟩] m) (x.frame buffer + 2)
      (x.values.take i)
    (x.build m buffer).2[i + 1]? = some ((v.setPointer p).copyTo here.1 here.2)
  writes : ∀ m data v, x.values[i]? = some v →
    let here := passed PacketValue.parse m (x.frame data + 2) (x.values.take i)
    (x.parse m data).2[x.lead + i]? = some ((v.setPointer p).parse here.1 here.2)

/-! ## The loop -/

section Loop

variable {access : PacketValue → Memory → Nat → List Copy}

theorem forEach_getElem? (m : Memory) (data : Nat) (values : List PacketValue) (i : Nat) :
    (forEach access m data values)[i]? = values[i]?.map fun v =>
      access v (passed access m data (values.take i)).1 (passed access m data (values.take i)).2 := by
  induction values generalizing m data i with
  | nil => rfl
  | cons v values ih =>
    cases i with
    | zero => rfl
    | succ i => exact ih _ _ i

/-- Behind objects that are copied as they are. -/
theorem passed_plain (m : Memory) (data : Nat) (rs : List Region) (pointers : List Nat)
    (hlength : pointers.length = rs.length) :
    (passed access m data (List.zipWith (fun r src => ⟨.plain r.size, src⟩) rs pointers)).2 =
      data + total rs := by
  induction rs generalizing m data pointers with
  | nil => rfl
  | cons r rs ih =>
    cases pointers with
    | nil => exact absurd hlength.symm (Nat.succ_ne_zero _)
    | cons src pointers =>
      have hsize : PacketValue.getSize ⟨.plain r.size, src⟩ (runAll (access ⟨.plain r.size, src⟩ m data) m) =
          r.size := Nat.add_zero _
      rw [List.zipWith_cons_cons, passed, hsize, ih _ _ _ (Nat.succ.inj hlength), total_cons, Nat.add_assoc]

end Loop

/-! ## Plain packets -/

section Plain

variable {idAddress i p : Nat} {values : List PacketValue}

theorem serves_plain (h : values[i]?.map PacketValue.src = some p) : Serves (.plain idAddress values) i p := by
  have hsame : ∀ v, values[i]? = some v → v.setPointer p = v := by
    intro v hv
    rw [hv] at h
    obtain rfl := Option.some.inj h
    rfl
  constructor
  · intro m buffer v hv
    have hv : values[i]? = some v := hv
    rw [hsame v hv]
    refine (forEach_getElem? _ _ values i).trans ?_
    rw [hv]
    rfl
  · intro m data v hv
    have hv : values[i]? = some v := hv
    change (forEach PacketValue.parse m (data + 2) values)[0 + i]? = _
    rw [hsame v hv, Nat.zero_add, forEach_getElem?, hv]
    rfl

end Plain

/-! ## Packets of the MDMA -/

section Mdma

variable {packet : MdmaPacket} {t : Table} {valuePointers : List Nat} {i p : Nat}

/-- The list of a call makes the copies of the call. -/
theorem transferList_eq (h : Wired packet t) {c : Call} (hc : c ≠ .parse none) :
    transferList packet (c.give packet t) = (c.copies packet).map fun c => [c] := by
  rw [transferList, (h.path hc).trace_eq (length_copies packet c)]

/-- The copies are what the MDMA executes. -/
theorem transferList_run (packet : MdmaPacket) (given : Table × NodeId) (m : Memory) :
    runAll (transferList packet given).flatten m = execute given.1 packet.nodesSize (some given.2) m := by
  rw [execute_eq_runAll, transferList, ← List.flatMap_def, List.flatMap_singleton']

theorem build_getElem? (h : Wired packet t) (m : Memory) (buffer : Nat) :
    ((Packet.mdma packet valuePointers t).build m buffer).2[i + 1]? =
      packet.fields[i]?.map fun r => [⟨r.address, packet.buffer + 2 + total (packet.fields.take i), r.size⟩] := by
  have hcopies : transferList packet ((Call.build none).give packet t) =
      (Call.copies packet (.build none)).map fun c => [c] := transferList_eq h nofun
  change (transferList packet ((Call.build none).give packet t))[i + 1]? = _
  rw [hcopies, List.getElem?_map]
  change ((gather (packet.buffer + 2) packet.fields ++ [])[i]?).map _ = _
  rw [List.append_nil, gather_getElem?, Option.map_map]
  rfl

theorem parse_getElem? (h : Wired packet t) (m : Memory) (data : Nat) :
    ((Packet.mdma packet valuePointers t).parse m data).2[2 + i]? =
      packet.fields[i]?.map fun r => [⟨packet.buffer + 2 + total (packet.fields.take i), r.address, r.size⟩] := by
  have hcopies : transferList packet ((Call.parse (some data)).give packet t) =
      (Call.copies packet (.parse (some data))).map fun c => [c] := transferList_eq h nofun
  change (transferList packet ((Call.parse (some data)).give packet t))[2 + i]? = _
  rw [hcopies, List.getElem?_map, Nat.add_comm]
  change ((scatter (packet.buffer + 2) packet.fields)[i]?).map _ = _
  rw [scatter_getElem?, Option.map_map]
  rfl

/-- The place of a field is the same whatever the pointers are. -/
theorem passed_values (access : PacketValue → Memory → Nat → List Copy) (m : Memory) (data i : Nat)
    (hlength : valuePointers.length = packet.fields.length + 1) :
    (passed access m data ((Packet.mdma packet valuePointers t).values.take i)).2 =
      data + total (packet.fields.take i) := by
  change (passed access m data
    ((List.zipWith (fun r src => (⟨.plain r.size, src⟩ : PacketValue)) packet.fields valuePointers.tail).take i)).2 = _
  rw [List.take_zipWith]
  refine passed_plain m data _ _ ?_
  rw [List.length_take, List.length_take, List.length_tail, hlength, Nat.add_sub_cancel]

theorem serves_mdma_iff (h : Wired packet t) (hlength : valuePointers.length = packet.fields.length + 1)
    (hi : i < packet.fields.length) :
    Serves (.mdma packet valuePointers t) i p ↔ packet.fields[i].address = p := by
  have htail : i < valuePointers.tail.length := by
    rw [List.length_tail, hlength]
    exact hi
  have hvalue : (Packet.mdma packet valuePointers t).values[i]? =
      some ⟨.plain packet.fields[i].size, valuePointers.tail[i]⟩ := by
    change (List.zipWith _ packet.fields valuePointers.tail)[i]? = _
    rw [List.getElem?_zipWith, List.getElem?_eq_getElem hi, List.getElem?_eq_getElem htail]
  constructor
  · intro hserves
    have hbuild := hserves.reads (fun _ => 0) 0 _ hvalue
    rw [build_getElem? h, List.getElem?_eq_getElem hi] at hbuild
    have hcopies := Option.some.inj hbuild
    exact congrArg Copy.source (List.cons.inj hcopies).1
  · intro hpointer
    constructor
    · intro m buffer v hv
      obtain rfl := Option.some.inj (hvalue.symm.trans hv)
      have hplace := passed_values (t := t) PacketValue.copyTo
        (runAll [⟨packet.idAddress, packet.buffer, 2⟩] m) (packet.buffer + 2) i hlength
      rw [build_getElem? h, List.getElem?_eq_getElem hi, ← hplace, ← hpointer]
      rfl
    · intro m data v hv
      obtain rfl := Option.some.inj (hvalue.symm.trans hv)
      have hplace := passed_values (t := t) PacketValue.parse m (packet.buffer + 2) i hlength
      change ((Packet.mdma packet valuePointers t).parse m data).2[2 + i]? = _
      rw [parse_getElem? h, List.getElem?_eq_getElem hi, ← hplace, ← hpointer]
      rfl

end Mdma

/-! ## Every run -/

/-- What calls leave as it was: the fields but for their pointers. -/
inductive Kept : Packet → Packet → Prop
  | plain (idAddress : Nat) {values values' : List PacketValue}
      (h : values'.map PacketValue.type = values.map PacketValue.type) :
      Kept (.plain idAddress values) (.plain idAddress values')
  | mdma {p : MdmaPacket} {t t' : Table} {valuePointers valuePointers' : List Nat} (hwired : Wired p t')
      (hlength : valuePointers'.length = p.fields.length + 1) :
      Kept (.mdma p valuePointers t) (.mdma p valuePointers' t')

theorem Constructed.kept {x : Packet} (hx : Constructed x) : Kept x x := by
  cases hx with
  | plain idAddress values => exact .plain idAddress rfl
  | mdma p t => exact .mdma (wired_construct p t) (List.length_map Region.address)

theorem types_modify (index pointer : Nat) (values : List PacketValue) :
    (values.modify index fun v => v.setPointer pointer).map PacketValue.type = values.map PacketValue.type := by
  induction values generalizing index with
  | nil => rw [List.modify_nil]
  | cons v values ih =>
    cases index with
    | zero => rfl
    | succ index => exact congrArg (v.type :: ·) (ih index)

theorem Kept.step {x y : Packet} (h : Kept x y) (op : Op) : Kept x (step y op) := by
  cases h with
  | plain idAddress h =>
    cases op with
    | build m buffer => exact .plain idAddress h
    | parse m data => exact .plain idAddress h
    | setPointer index pointer =>
      exact .plain idAddress ((types_modify index pointer _).trans h)
  | mdma hwired hlength =>
    cases op with
    | build m buffer => exact .mdma (hwired.give nofun) hlength
    | parse m data => exact .mdma (hwired.give nofun) hlength
    | setPointer index pointer => exact .mdma hwired (List.length_set.trans hlength)

theorem Kept.run {x y : Packet} (h : Kept x y) (ops : List Op) : Kept x (run y ops) := by
  induction ops generalizing y with
  | nil => exact h
  | cons op ops ih => exact ih (h.step op)

/-- A pointer of a plain packet is that of the last call that set it. -/
theorem run_pointer {idAddress i : Nat} {values : List PacketValue} {ops : List Op}
    (hops : ∀ q, Op.setPointer i q ∉ ops) :
    (run (.plain idAddress values) ops).values[i]? = values[i]? := by
  induction ops generalizing values with
  | nil => rfl
  | cons op ops ih =>
    have hrest : ∀ q, Op.setPointer i q ∉ ops := fun q hmem => hops q (List.mem_cons_of_mem op hmem)
    cases op with
    | build m buffer => exact ih hrest
    | parse m data => exact ih hrest
    | setPointer index pointer =>
      have hne : index ≠ i := by
        rintro rfl
        exact hops pointer List.mem_cons_self
      exact (ih hrest).trans (List.getElem?_modify_ne _ values hne)

theorem run_plain (idAddress : Nat) (values : List PacketValue) (ops : List Op) :
    ∃ values', run (.plain idAddress values) ops = .plain idAddress values' ∧ values'.length = values.length := by
  have hkept := (Constructed.plain idAddress values).kept.run ops
  generalize run (.plain idAddress values) ops = y at hkept ⊢
  cases hkept with
  | plain _ h =>
    have hlength := congrArg List.length h
    rw [List.length_map, List.length_map] at hlength
    exact ⟨_, rfl, hlength⟩

theorem run_mdma (p : MdmaPacket) (t : Table) (ops : List Op) :
    ∃ valuePointers t', run (.mdma p (p.values.map Region.address) (p.construct t)) ops =
      .mdma p valuePointers t' ∧ Wired p t' ∧ valuePointers.length = p.fields.length + 1 := by
  have hkept := (Constructed.mdma p t).kept.run ops
  generalize run (.mdma p (p.values.map Region.address) (p.construct t)) ops = y at hkept ⊢
  cases hkept with
  | mdma hwired hlength => exact ⟨_, _, rfl, hwired, hlength⟩

theorem run_append (x : Packet) (ops ops' : List Op) : run x (ops ++ ops') = run (run x ops) ops' :=
  List.foldl_append

theorem values_construct (p : MdmaPacket) (t : Table) : (Packet.mdma p (p.values.map Region.address) t).values =
    p.fields.map fun r => ⟨.plain r.size, r.address⟩ := by
  change List.zipWith _ p.fields (p.fields.map Region.address) = _
  rw [List.zipWith_map_right, List.zipWith_self]

theorem serves_plain_run (idAddress p : Nat) {i : Nat} {values : List PacketValue} (before : List Op)
    {after : List Op} (hi : i < values.length) (hafter : ∀ q, Op.setPointer i q ∉ after) :
    Serves (run (.plain idAddress values) (before ++ .setPointer i p :: after)) i p := by
  obtain ⟨values₁, hbefore, hlength⟩ := run_plain idAddress values before
  have hset : run (.plain idAddress values) (before ++ .setPointer i p :: after) =
      run (.plain idAddress (values₁.modify i fun v => v.setPointer p)) after := by
    rw [run_append, hbefore]
    rfl
  obtain ⟨values₂, hrun, -⟩ := run_plain idAddress (values₁.modify i fun v => v.setPointer p) after
  have hpointer : (run (.plain idAddress (values₁.modify i fun v => v.setPointer p)) after).values[i]? =
      (values₁.modify i fun v => v.setPointer p)[i]? := run_pointer hafter
  have hi₁ : i < values₁.length := hlength ▸ hi
  rw [hset, hrun]
  rw [hrun, List.getElem?_modify_eq, List.getElem?_eq_getElem hi₁] at hpointer
  refine serves_plain ?_
  exact congrArg (Option.map PacketValue.src) hpointer

/-- **Pointers.** Behind `set_pointer` a field is the value at the new pointer, and that of
an `MdmaPacket` only where the pointer is the one it was constructed with. -/
theorem set_pointer_serves_iff {x : Packet} (hx : Constructed x) {i : Nat} (p : Nat) (before after : List Op)
    (hi : i < x.values.length) (hafter : ∀ q, Op.setPointer i q ∉ after) :
    Serves (run x (before ++ .setPointer i p :: after)) i p ↔ x.IsPlain ∨ x.values[i].src = p := by
  cases hx with
  | plain idAddress values =>
    exact ⟨fun _ => .inl trivial, fun _ => serves_plain_run idAddress p before hi hafter⟩
  | mdma packet t =>
    obtain ⟨valuePointers, t', hrun, hwired, hlength⟩ :=
      run_mdma packet t (before ++ .setPointer i p :: after)
    have hfield : i < packet.fields.length := lt_of_lt_of_le hi (List.length_zipWith.trans_le (Nat.min_le_left _ _))
    have hsrc : (Packet.mdma packet (packet.values.map Region.address) (packet.construct t)).values[i].src =
        packet.fields[i].address := by
      rw [List.getElem_of_eq (values_construct packet (packet.construct t)) hi, List.getElem_map]
    rw [hrun, serves_mdma_iff hwired hlength hfield, hsrc]
    exact ⟨.inr, fun h => h.resolve_left id⟩

theorem set_pointer_serves_small : Serves (run (.mdma small (small.values.map Region.address) (small.construct blank))
    ([.setPointer 0 9] ++ .setPointer 0 2 :: [.parse (fun _ => 0) 20])) 0 2 :=
  (set_pointer_serves_iff (.mdma small blank) 2 [.setPointer 0 9] [.parse (fun _ => 0) 20] (by decide)
    (fun q h => nomatch List.mem_singleton.mp h)).mpr (.inr (by decide))

/-- The nodes keep the pointers of the constructor. -/
theorem set_pointer_not_served :
    ¬ Serves (run (.mdma small (small.values.map Region.address) (small.construct blank)) [.setPointer 0 9]) 0 9 := by
  intro hserves
  have hpointer := (serves_mdma_iff (wired_construct small blank) rfl (by decide)).mp hserves
  exact absurd hpointer (by decide)

end StLib.Mdma.SetPointer
