import StLib.Base.LowestBit
import StLib.Base.RegisterBits

/-! # Nodes of the linked lists

`MDMA::LinkedListNode`. `HAL_MDMA_LinkedList_CreateNode` and the constants of the HAL are
parameters; what the function answers only decides on a `PANIC`, which is left out. -/
namespace StLib.Mdma.Nodes

open Base.RegisterBits

abbrev Word := BitVec 32

/-! ## The HAL -/

/-- The cases of the `switch`. -/
inductive ElemSize
  | byte
  | halfword
  | word
  | doubleword
deriving DecidableEq

/-- `Init` and `BlockCount`, but for what depends on the transfer. -/
structure Mode where
  dataAlignment : Word
  sourceBurst : Word
  destBurst : Word
  transferTriggerMode : Word
  sourceBlockAddressOffset : Word
  destBlockAddressOffset : Word
  blockCount : Word
  priority : Word
  endianness : Word
  request : Word
deriving DecidableEq

structure Constants where
  /-- `MDMA_SRC_DATASIZE_` -/
  srcDatasize : ElemSize → Word
  destDatasize : ElemSize → Word
  srcInc : ElemSize → Word
  destInc : ElemSize → Word
  /-- `MDMA_CTCR_` -/
  sinc : Word
  sincos : Word
  dinc : Word
  dincos : Word
  ssize : Word
  dsize : Word
  tlen : Word
  tlenPos : Nat
  /-- `MDMA_CTBR_` -/
  sbus : Word
  dbus : Word
  dataalignRight : Word
  sourceBurstSingle : Word
  destBurstSingle : Word
  fullTransfer : Word
  priorityVeryHigh : Word
  littleEndiannessPreserve : Word
  requestSw : Word

/-- `MDMA_LinkNodeConfTypeDef`. -/
structure LinkNodeConf where
  mode : Mode
  sourceDataSize : Word
  destDataSize : Word
  sourceInc : Word
  destinationInc : Word
  bufferTransferLength : Word
  srcAddress : Word
  dstAddress : Word
  blockDataLength : Word
deriving DecidableEq

/-- `MDMA_LinkNodeTypeDef`. -/
@[ext]
structure LinkNode where
  ctcr : Word
  cbndtr : Word
  csar : Word
  cdar : Word
  cbrur : Word
  clar : Word
  ctbr : Word
  cmar : Word
  cmdr : Word
deriving DecidableEq

/-- What `HAL_MDMA_LinkedList_CreateNode` leaves in a zeroed node. -/
abbrev CreateNode := LinkNodeConf → LinkNode

/-! ## The node -/

@[ext]
structure LinkedListNode where
  node : LinkNode
  transferSize : Word
deriving DecidableEq

def isTcm (addr : Word) : Bool :=
  addr < 0x00010000#32 || (0x20000000#32 ≤ addr && addr < 0x20020000#32)

/-- `std::min`. -/
def least (a b : Word) : Word := if b < a then b else a

def computeElemSize (src dst size : Word) : Word :=
  let maxElem := if isTcm src || isTcm dst then 4#32 else 8#32
  let sizeGran := size &&& -size
  let addrOr := src ||| dst
  let addrGran := if addrOr ≠ 0#32 then addrOr &&& -addrOr else maxElem
  least (least sizeGran addrGran) maxElem

/-- The `switch`. -/
def elemSize (effectiveSize : Word) : ElemSize :=
  match effectiveSize.toNat with
  | 2 => .halfword
  | 4 => .word
  | 8 => .doubleword
  | _ => .byte

def bufLen (size elem : Word) : Word :=
  let len := least size 128#32 / elem * elem
  if len = 0#32 then elem else len

/-- `MODIFY_REG`. -/
def modifyReg (x clearmask setmask : Word) : Word := clearBit x clearmask ||| setmask

section

variable (c : Constants)

/-- The fields of the register that depend on the transfer. -/
def Constants.ctcrMask : Word :=
  c.sinc ||| c.sincos ||| c.dinc ||| c.dincos ||| c.ssize ||| c.dsize ||| c.tlen

def Constants.ctcrFields (e : ElemSize) (len : Word) : Word :=
  c.srcInc e ||| c.destInc e ||| c.srcDatasize e ||| c.destDatasize e ||| (len - 1#32) <<< c.tlenPos

namespace LinkedListNode

variable (n : LinkedListNode)

def reconfigureCtcr : LinkedListNode :=
  let size := n.transferSize
  if size = 0#32 then n
  else
    let effectiveSize := computeElemSize n.node.csar n.node.cdar size
    { n with node := { n.node with
      ctcr := modifyReg n.node.ctcr c.ctcrMask
        (c.ctcrFields (elemSize effectiveSize) (bufLen size effectiveSize)) } }

def setNext (next : Word) : LinkedListNode := { n with node := { n.node with clar := next } }

def setDestination (destination : Word) : LinkedListNode :=
  let ctbr :=
    if isTcm destination then setBit n.node.ctbr c.dbus else clearBit n.node.ctbr c.dbus
  { n with node := { n.node with cdar := destination, ctbr } }.reconfigureCtcr c

def setSource (source : Word) : LinkedListNode :=
  let ctbr := if isTcm source then setBit n.node.ctbr c.sbus else clearBit n.node.ctbr c.sbus
  { n with node := { n.node with csar := source, ctbr } }.reconfigureCtcr c

end LinkedListNode

def Constants.mode : Mode where
  dataAlignment := c.dataalignRight
  sourceBurst := c.sourceBurstSingle
  destBurst := c.destBurstSingle
  transferTriggerMode := c.fullTransfer
  sourceBlockAddressOffset := 0#32
  destBlockAddressOffset := 0#32
  blockCount := 1#32
  priority := c.priorityVeryHigh
  endianness := c.littleEndiannessPreserve
  request := c.requestSw

def nodeConfig (src dst size : Word) : LinkNodeConf :=
  let effectiveSize := computeElemSize src dst size
  let e := elemSize effectiveSize
  { mode := c.mode
    sourceDataSize := c.srcDatasize e
    destDataSize := c.destDatasize e
    sourceInc := c.srcInc e
    destinationInc := c.destInc e
    bufferTransferLength := bufLen size effectiveSize
    srcAddress := src
    dstAddress := dst
    blockDataLength := size }

variable (create : CreateNode)

/-- `init_node` of the object `this`. -/
def initNode (this : LinkedListNode) (src dst size : Word) : LinkedListNode :=
  if size = 0#32 then this
  else
    let node := create (nodeConfig c src dst size)
    let ctbr := if isTcm src then setBit node.ctbr c.sbus else node.ctbr
    let ctbr := if isTcm dst then setBit ctbr c.dbus else ctbr
    { node := { node with ctbr }, transferSize := size }

end

/-! ## The element size -/

section ElementSize

variable {src dst size elem : Word}

theorem least_toNat (a b : Word) : (least a b).toNat = min a.toNat b.toNat := by
  rw [least]
  split
  · next hlt => rw [Nat.min_eq_right (Nat.le_of_lt (BitVec.lt_def.mp hlt))]
  · next hge => rw [Nat.min_eq_left (Nat.not_lt.mp fun hlt => hge (BitVec.lt_def.mpr hlt))]

theorem pow_min (a b : Nat) : min (2 ^ a) (2 ^ b) = 2 ^ min a b := by
  rcases Nat.le_total a b with h | h
  · rw [Nat.min_eq_left h, Nat.min_eq_left (Nat.pow_le_pow_right Nat.two_pos h)]
  · rw [Nat.min_eq_right h, Nat.min_eq_right (Nat.pow_le_pow_right Nat.two_pos h)]

/-- The exponent of the greatest element. -/
def maxExponent (src dst : Word) : Nat := if isTcm src || isTcm dst then 2 else 3

/-- The granularity of the addresses. -/
theorem addrGran_spec (src dst : Word) : ∃ b,
    (if src ||| dst ≠ 0#32 then (src ||| dst) &&& -(src ||| dst)
      else if isTcm src || isTcm dst then 4#32 else 8#32).toNat = 2 ^ b ∧
    ∀ j ≤ maxExponent src dst, (2 ^ j ∣ src.toNat ∧ 2 ^ j ∣ dst.toNat) ↔ j ≤ b := by
  by_cases h : src ||| dst = 0#32
  · refine ⟨maxExponent src dst, ?_, fun j hj => ⟨fun _ => hj, fun _ => ?_⟩⟩
    · rw [if_neg (not_not_intro h), maxExponent]
      split <;> rfl
    · rw [← Base.LowestBit.pow_dvd_or, h]
      exact Nat.dvd_zero _
  · refine ⟨_, by rw [if_pos h]; exact Base.LowestBit.and_neg_toNat h, fun j _ => ?_⟩
    rw [← Base.LowestBit.pow_dvd_or, Base.LowestBit.pow_dvd_iff h, Base.LowestBit.and_neg_toNat h,
      Nat.pow_le_pow_iff_right Nat.one_lt_two]

/-- The element size is the greatest power of two up to the maximum that divides the addresses
and the size. -/
theorem computeElemSize_spec (hsize : size ≠ 0#32) (src dst : Word) : ∃ k ≤ maxExponent src dst,
    (computeElemSize src dst size).toNat = 2 ^ k ∧
      ∀ j ≤ maxExponent src dst, (2 ^ j ∣ src.toNat ∧ 2 ^ j ∣ dst.toNat) ∧ 2 ^ j ∣ size.toNat ↔ j ≤ k := by
  obtain ⟨b, hgran, hdvd⟩ := addrGran_spec src dst
  have hmax : (if isTcm src || isTcm dst then 4#32 else 8#32 : Word).toNat = 2 ^ maxExponent src dst := by
    rw [maxExponent]
    split <;> rfl
  refine ⟨min (min size.ctz.toNat b) (maxExponent src dst), Nat.min_le_right .., ?_, fun j hj => ?_⟩
  · rw [computeElemSize, least_toNat, least_toNat, hgran, hmax, Base.LowestBit.and_neg_toNat hsize, pow_min,
      pow_min]
  · rw [hdvd j hj, Base.LowestBit.pow_dvd_iff hsize, Base.LowestBit.and_neg_toNat hsize,
      Nat.pow_le_pow_iff_right Nat.one_lt_two]
    omega

/-- The buffer is made of whole elements and is no longer than the block. -/
theorem bufLen_spec (hpos : 0 < elem.toNat) (hsmall : elem.toNat ≤ 128) (hle : elem.toNat ≤ size.toNat) :
    elem.toNat ∣ (bufLen size elem).toNat ∧ 1 ≤ (bufLen size elem).toNat ∧
      (bufLen size elem).toNat ≤ 128 ∧ (bufLen size elem).toNat ≤ size.toNat := by
  have hleast : (least size 128#32).toNat = min size.toNat 128 := least_toNat ..
  have hwhole : (least size 128#32 / elem * elem).toNat = min size.toNat 128 / elem.toNat * elem.toNat := by
    have hfits := Nat.div_mul_le_self (min size.toNat 128) elem.toNat
    rw [BitVec.toNat_mul, BitVec.toNat_udiv, hleast, Nat.mod_eq_of_lt (by omega)]
  have hone : 1 ≤ min size.toNat 128 / elem.toNat := (Nat.one_le_div_iff hpos).mpr (by omega)
  have hge := Nat.mul_le_mul_right elem.toNat hone
  have hfits := Nat.div_mul_le_self (min size.toNat 128) elem.toNat
  have hne : least size 128#32 / elem * elem ≠ 0#32 := by
    intro hzero
    rw [hzero] at hwhole
    change 0 = _ at hwhole
    omega
  rw [bufLen, if_neg hne, hwhole]
  exact ⟨Nat.dvd_mul_left .., by omega, by omega, by omega⟩

end ElementSize

/-! ## What the HAL is relied on for -/

/-- The values of the fields lie in the fields, and the bits of the buses are two. -/
structure Constants.Lawful (c : Constants) : Prop where
  sizes : ∀ e, (c.srcInc e ||| c.destInc e ||| c.srcDatasize e ||| c.destDatasize e) &&& ~~~c.ctcrMask = 0#32
  tlen : ∀ len : Word, 1 ≤ len.toNat → len.toNat ≤ 128 →
    ((len - 1#32) <<< c.tlenPos) &&& ~~~c.ctcrMask = 0#32
  buses : c.sbus &&& c.dbus = 0#32

def LinkNodeConf.ctcrFields (c : Constants) (cfg : LinkNodeConf) : Word :=
  cfg.sourceInc ||| cfg.destinationInc ||| cfg.sourceDataSize ||| cfg.destDataSize |||
    (cfg.bufferTransferLength - 1#32) <<< c.tlenPos

/-- Nodes of the mode of the class: the addresses are copied, the fields of `CTCR` are those of the
configuration, of `CTBR` only the request is set, and the rest depends on the mode and on the
length. -/
structure CreatesNodes (c : Constants) (create : CreateNode) : Prop where
  csar : ∀ cfg, (create cfg).csar = cfg.srcAddress
  cdar : ∀ cfg, (create cfg).cdar = cfg.dstAddress
  fields : ∀ cfg, cfg.mode = c.mode →
    (create cfg).ctcr &&& c.ctcrMask = cfg.ctcrFields c &&& c.ctcrMask
  others : ∀ cfg cfg', cfg.mode = c.mode → cfg'.mode = c.mode →
    cfg.ctcrFields c &&& ~~~c.ctcrMask = 0#32 → cfg'.ctcrFields c &&& ~~~c.ctcrMask = 0#32 →
    (create cfg).ctcr &&& ~~~c.ctcrMask = (create cfg').ctcr &&& ~~~c.ctcrMask
  request : ∀ cfg cfg', cfg.mode = cfg'.mode → (create cfg).ctbr = (create cfg').ctbr
  routing : ∀ cfg, cfg.mode = c.mode → (create cfg).ctbr &&& (c.sbus ||| c.dbus) = 0#32
  rest : ∀ cfg cfg', cfg.mode = cfg'.mode → cfg.blockDataLength = cfg'.blockDataLength →
    (create cfg).cbndtr = (create cfg').cbndtr ∧ (create cfg).cbrur = (create cfg').cbrur ∧
    (create cfg).cmar = (create cfg').cmar ∧ (create cfg).cmdr = (create cfg').cmdr

/-! ## Changes -/

inductive Change
  | source (address : Word)
  | destination (address : Word)
  | next (address : Word)

def Change.apply (c : Constants) (n : LinkedListNode) : Change → LinkedListNode
  | .source address => n.setSource c address
  | .destination address => n.setDestination c address
  | .next address => n.setNext address

/-- The source and the destination after a change. -/
def Change.addresses (a : Word × Word) : Change → Word × Word
  | .source address => (address, a.2)
  | .destination address => (a.1, address)
  | .next _ => a

def run (c : Constants) (changes : List Change) (n : LinkedListNode) : LinkedListNode :=
  changes.foldl (Change.apply c) n

def resulting (changes : List Change) (a : Word × Word) : Word × Word := changes.foldl Change.addresses a

/-- The transfer of a node: the registers but for the link to the next node. -/
def LinkedListNode.transfer (n : LinkedListNode) : LinkedListNode := n.setNext 0#32

section Registers

variable {w : Nat} {x y mask mask' : BitVec w}

theorem and_or_not (x mask : BitVec w) : (x &&& mask) ||| (x &&& ~~~mask) = x := by
  refine BitVec.eq_of_getLsbD_eq fun i hi => ?_
  rw [BitVec.getLsbD_or, BitVec.getLsbD_and, BitVec.getLsbD_and, BitVec.getLsbD_not, decide_eq_true hi]
  cases x.getLsbD i <;> cases mask.getLsbD i <;> rfl

theorem and_eq_self (h : x &&& ~~~mask = 0#w) : x &&& mask = x := by
  have hsplit := and_or_not x mask
  rwa [h, BitVec.or_zero] at hsplit

/-- A bit that is set if the address is in a TCM. -/
def setIf (x : BitVec w) (p : Bool) (mask : BitVec w) : BitVec w := if p then setBit x mask else x

theorem setIf_comm (x : BitVec w) (p q : Bool) :
    setIf (setIf x p mask) q mask' = setIf (setIf x q mask') p mask := by
  cases p <;> cases q
  · rfl
  · rfl
  · rfl
  · exact (BitVec.or_assoc ..).trans
      ((congrArg (x ||| ·) (BitVec.or_comm ..)).trans (BitVec.or_assoc ..).symm)

theorem setIf_and (p : Bool) (h : x &&& mask = 0#w) (hmasks : mask' &&& mask = 0#w) :
    setIf x p mask' &&& mask = 0#w := by
  cases p with
  | false => exact h
  | true =>
    change (x ||| mask') &&& mask = 0#w
    rw [BitVec.and_comm, BitVec.and_or_distrib_left, BitVec.and_comm mask, BitVec.and_comm mask, h, hmasks,
      BitVec.or_zero]

theorem clearBit_eq (h : x &&& mask = 0#w) : clearBit x mask = x := by
  have hsplit := and_or_not x mask
  rwa [h, BitVec.zero_or] at hsplit

theorem clearBit_setBit (h : x &&& mask = 0#w) : clearBit (setBit x mask) mask = x := by
  have hclear : clearBit (setBit x mask) mask = clearBit x mask := by
    refine BitVec.eq_of_getLsbD_eq fun i hi => ?_
    rw [clearBit, clearBit, setBit, BitVec.getLsbD_and, BitVec.getLsbD_and, BitVec.getLsbD_or,
      BitVec.getLsbD_not]
    cases x.getLsbD i <;> cases mask.getLsbD i <;> simp
  rw [hclear, clearBit_eq h]

theorem setBit_setBit (x mask : BitVec w) : setBit (setBit x mask) mask = setBit x mask := by
  rw [setBit, setBit, BitVec.or_assoc, BitVec.or_self]

/-- The bit of the old address does not stay. -/
theorem put_setIf (h : x &&& mask = 0#w) (p q : Bool) :
    (if p then setBit (setIf x q mask) mask else clearBit (setIf x q mask) mask) = setIf x p mask := by
  cases p <;> cases q
  · exact clearBit_eq h
  · exact clearBit_setBit h
  · rfl
  · exact setBit_setBit x mask

end Registers

section Routing

variable {c : Constants} {ctbr : Word}

/-- `CTBR` for addresses, from the request. -/
def routed (c : Constants) (ctbr src dst : Word) : Word :=
  setIf (setIf ctbr (isTcm src) c.sbus) (isTcm dst) c.dbus

/-- No bus is set by the request. -/
theorem unrouted (h : ctbr &&& (c.sbus ||| c.dbus) = 0#32) :
    ctbr &&& c.sbus = 0#32 ∧ ctbr &&& c.dbus = 0#32 := by
  rw [BitVec.and_or_distrib_left] at h
  exact BitVec.or_eq_zero_iff.mp h

theorem routed_source (hbuses : c.sbus &&& c.dbus = 0#32) (h : ctbr &&& (c.sbus ||| c.dbus) = 0#32)
    (src src' dst : Word) :
    (if isTcm src' then setBit (routed c ctbr src dst) c.sbus
      else clearBit (routed c ctbr src dst) c.sbus) = routed c ctbr src' dst := by
  have hfree := setIf_and (isTcm dst) (unrouted h).1 ((BitVec.and_comm ..).trans hbuses)
  unfold routed
  rw [setIf_comm, put_setIf hfree, setIf_comm]

theorem routed_destination (hbuses : c.sbus &&& c.dbus = 0#32) (h : ctbr &&& (c.sbus ||| c.dbus) = 0#32)
    (src dst dst' : Word) :
    (if isTcm dst' then setBit (routed c ctbr src dst) c.dbus
      else clearBit (routed c ctbr src dst) c.dbus) = routed c ctbr src dst' :=
  put_setIf (setIf_and (isTcm src) (unrouted h).2 hbuses) ..

end Routing

section Nodes

variable {c : Constants} {create : CreateNode} {this n m : LinkedListNode} {src dst size : Word}

theorem initNode_eq (hsize : size ≠ 0#32) (this : LinkedListNode) :
    initNode c create this src dst size =
      { node := { create (nodeConfig c src dst size) with
          ctbr := routed c (create (nodeConfig c src dst size)).ctbr src dst }
        transferSize := size } := if_neg hsize

theorem initNode_ctcr (hsize : size ≠ 0#32) (this : LinkedListNode) (src dst : Word) :
    (initNode c create this src dst size).node.ctcr = (create (nodeConfig c src dst size)).ctcr := by
  rw [initNode_eq hsize]

/-- The fields of the register for a transfer. -/
def transferFields (c : Constants) (src dst size : Word) : Word :=
  c.ctcrFields (elemSize (computeElemSize src dst size)) (bufLen size (computeElemSize src dst size))

/-- The buffer of a transfer. -/
theorem transfer_bufLen (hsize : size ≠ 0#32) (src dst : Word) :
    (computeElemSize src dst size).toNat ∣ (bufLen size (computeElemSize src dst size)).toNat ∧
      1 ≤ (bufLen size (computeElemSize src dst size)).toNat ∧
      (bufLen size (computeElemSize src dst size)).toNat ≤ 128 ∧
      (bufLen size (computeElemSize src dst size)).toNat ≤ size.toNat := by
  obtain ⟨k, hk, helem, hdvd⟩ := computeElemSize_spec hsize src dst
  have hmax : maxExponent src dst ≤ 3 := by
    rw [maxExponent]
    split <;> decide
  have hsmall : 2 ^ k ≤ 2 ^ 3 := Nat.pow_le_pow_right Nat.two_pos (Nat.le_trans hk hmax)
  have hpos : 0 < size.toNat := Nat.pos_of_ne_zero fun hzero => hsize (BitVec.eq_of_toNat_eq hzero)
  have hle : 2 ^ k ≤ size.toNat := Nat.le_of_dvd hpos ((hdvd k hk).mpr (Nat.le_refl k)).2
  refine bufLen_spec ?_ ?_ ?_
  · rw [helem]
    exact Nat.two_pow_pos k
  · omega
  · omega

theorem fields_within (hc : c.Lawful) (hsize : size ≠ 0#32) (src dst : Word) :
    transferFields c src dst size &&& ~~~c.ctcrMask = 0#32 := by
  obtain ⟨-, hleast, hmost, -⟩ := transfer_bufLen hsize src dst
  rw [transferFields, Constants.ctcrFields, BitVec.and_comm, BitVec.and_or_distrib_left, BitVec.and_comm,
    hc.sizes, BitVec.zero_or, BitVec.and_comm]
  exact hc.tlen _ hleast hmost

/-- The fields of a node are those of its transfer. -/
theorem create_fields (hc : c.Lawful) (hcreate : CreatesNodes c create) (hsize : size ≠ 0#32)
    (src dst : Word) : (create (nodeConfig c src dst size)).ctcr &&& c.ctcrMask = transferFields c src dst size :=
  (hcreate.fields (nodeConfig c src dst size) rfl).trans (and_eq_self (fields_within hc hsize src dst))

/-- Where the setters change the fields, `init_node` has put them. -/
theorem modifyReg_ctcr (hc : c.Lawful) (hcreate : CreatesNodes c create) (hsize : size ≠ 0#32)
    (src dst src' dst' : Word) :
    modifyReg (create (nodeConfig c src' dst' size)).ctcr c.ctcrMask (transferFields c src dst size) =
      (create (nodeConfig c src dst size)).ctcr := by
  have hothers := hcreate.others (nodeConfig c src' dst' size) (nodeConfig c src dst size) rfl rfl
    (fields_within hc hsize src' dst') (fields_within hc hsize src dst)
  rw [modifyReg, clearBit, hothers, ← create_fields hc hcreate hsize, BitVec.or_comm, and_or_not]

/-! ## Reprogramming -/

theorem setSource_init (hc : c.Lawful) (hcreate : CreatesNodes c create) (hsize : size ≠ 0#32)
    (src' : Word) : ((initNode c create this src dst size).setSource c src').transfer =
      (initNode c create this src' dst size).transfer := by
  have hcfg : (nodeConfig c src dst size).mode = c.mode := rfl
  have hrouted := routed_source hc.buses (hcreate.routing _ hcfg) src src' dst
  have hrequest := hcreate.request (nodeConfig c src dst size) (nodeConfig c src' dst size) rfl
  obtain ⟨hcbndtr, hcbrur, hcmar, hcmdr⟩ :=
    hcreate.rest (nodeConfig c src dst size) (nodeConfig c src' dst size) rfl rfl
  rw [initNode_eq hsize, initNode_eq hsize, ← hrequest, LinkedListNode.setSource,
    LinkedListNode.reconfigureCtcr, if_neg hsize]
  refine LinkedListNode.ext (LinkNode.ext ?_ hcbndtr ?_ ?_ hcbrur rfl hrouted hcmar hcmdr) rfl
  · change modifyReg _ _ (transferFields c src' (create (nodeConfig c src dst size)).cdar size) = _
    rw [hcreate.cdar]
    exact modifyReg_ctcr hc hcreate hsize src' dst src dst
  · exact (hcreate.csar (nodeConfig c src' dst size)).symm
  · exact (hcreate.cdar (nodeConfig c src dst size)).trans (hcreate.cdar (nodeConfig c src' dst size)).symm

theorem setDestination_init (hc : c.Lawful) (hcreate : CreatesNodes c create) (hsize : size ≠ 0#32)
    (dst' : Word) : ((initNode c create this src dst size).setDestination c dst').transfer =
      (initNode c create this src dst' size).transfer := by
  have hcfg : (nodeConfig c src dst size).mode = c.mode := rfl
  have hrouted := routed_destination hc.buses (hcreate.routing _ hcfg) src dst dst'
  have hrequest := hcreate.request (nodeConfig c src dst size) (nodeConfig c src dst' size) rfl
  obtain ⟨hcbndtr, hcbrur, hcmar, hcmdr⟩ :=
    hcreate.rest (nodeConfig c src dst size) (nodeConfig c src dst' size) rfl rfl
  rw [initNode_eq hsize, initNode_eq hsize, ← hrequest, LinkedListNode.setDestination,
    LinkedListNode.reconfigureCtcr, if_neg hsize]
  refine LinkedListNode.ext (LinkNode.ext ?_ hcbndtr ?_ ?_ hcbrur rfl hrouted hcmar hcmdr) rfl
  · change modifyReg _ _ (transferFields c (create (nodeConfig c src dst size)).csar dst' size) = _
    rw [hcreate.csar]
    exact modifyReg_ctcr hc hcreate hsize src dst' src dst
  · exact (hcreate.csar (nodeConfig c src dst size)).trans (hcreate.csar (nodeConfig c src dst' size)).symm
  · exact (hcreate.cdar (nodeConfig c src dst' size)).symm

/-- The link has no part in the transfer. -/
theorem reconfigureCtcr_transfer (n : LinkedListNode) :
    (n.reconfigureCtcr c).transfer = (n.transfer.reconfigureCtcr c).transfer := by
  have hsame : n.transfer.transferSize = n.transferSize := rfl
  by_cases hsize : n.transferSize = 0#32
  · rw [LinkedListNode.reconfigureCtcr, if_pos hsize, LinkedListNode.reconfigureCtcr, hsame, if_pos hsize]
    rfl
  · rw [LinkedListNode.reconfigureCtcr, if_neg hsize, LinkedListNode.reconfigureCtcr, hsame, if_neg hsize]
    rfl

theorem apply_own (change : Change) (n : LinkedListNode) :
    (change.apply c n).transfer = (change.apply c n.transfer).transfer := by
  cases change with
  | next address => rfl
  | source address =>
    exact (reconfigureCtcr_transfer _).trans (reconfigureCtcr_transfer { n.transfer with
      node := { n.transfer.node with
        csar := address
        ctbr := if isTcm address then setBit n.node.ctbr c.sbus else clearBit n.node.ctbr c.sbus } }).symm
  | destination address =>
    exact (reconfigureCtcr_transfer _).trans (reconfigureCtcr_transfer { n.transfer with
      node := { n.transfer.node with
        cdar := address
        ctbr := if isTcm address then setBit n.node.ctbr c.dbus else clearBit n.node.ctbr c.dbus } }).symm

theorem apply_transfer (change : Change) (h : n.transfer = m.transfer) :
    (change.apply c n).transfer = (change.apply c m).transfer := by
  rw [apply_own change n, h, ← apply_own change m]

theorem apply_init (hc : c.Lawful) (hcreate : CreatesNodes c create) (hsize : size ≠ 0#32) (change : Change)
    (a : Word × Word) (h : n.transfer = (initNode c create this a.1 a.2 size).transfer) :
    (change.apply c n).transfer =
      (initNode c create this (change.addresses a).1 (change.addresses a).2 size).transfer := by
  rw [apply_transfer change h]
  cases change with
  | source address => exact setSource_init hc hcreate hsize address
  | destination address => exact setDestination_init hc hcreate hsize address
  | next address => rfl

theorem run_init (hc : c.Lawful) (hcreate : CreatesNodes c create) (hsize : size ≠ 0#32)
    (changes : List Change) (a : Word × Word) (h : n.transfer = (initNode c create this a.1 a.2 size).transfer) :
    (run c changes n).transfer =
      (initNode c create this (resulting changes a).1 (resulting changes a).2 size).transfer := by
  induction changes generalizing n a with
  | nil => exact h
  | cons change rest ih => exact ih (change.addresses a) (apply_init hc hcreate hsize change a h)

end Nodes

/-! ## The transfer of a node -/

/-- A register `CTCR` for a transfer, with the element size and the length of the buffer. -/
structure Programmed (c : Constants) (src dst size ctcr elem len : Word) : Prop where
  power : elem.toNat ∈ [1, 2, 4, 8]
  tcm : isTcm src || isTcm dst → elem.toNat ≤ 4
  divides : elem.toNat ∣ src.toNat ∧ elem.toNat ∣ dst.toNat ∧ elem.toNat ∣ size.toNat
  greatest : ∀ p ∈ [1, 2, 4, 8], (isTcm src || isTcm dst → p ≤ 4) →
    p ∣ src.toNat ∧ p ∣ dst.toNat ∧ p ∣ size.toNat → p ≤ elem.toNat
  whole : elem.toNat ∣ len.toNat
  least : 1 ≤ len.toNat
  most : len.toNat ≤ 128
  block : len.toNat ≤ size.toNat
  fields : ctcr &&& c.ctcrMask = c.ctcrFields (elemSize elem) len

theorem elem_power {k : Nat} (hk : k ≤ 3) : 2 ^ k ∈ [1, 2, 4, 8] := by
  have hall : ∀ k ≤ 3, 2 ^ k ∈ [1, 2, 4, 8] := by decide
  exact hall k hk

theorem maxExponent_le (src dst : Word) : maxExponent src dst ≤ 3 := by
  rw [maxExponent]
  split <;> decide

/-- The powers that an element may be. -/
theorem power_cases {p : Nat} {src dst : Word} (hp : p ∈ [1, 2, 4, 8])
    (htcm : isTcm src || isTcm dst → p ≤ 4) : ∃ j ≤ maxExponent src dst, p = 2 ^ j := by
  rw [maxExponent]
  split
  · next h =>
    have hle := htcm h
    rcases hp with _ | ⟨_, _ | ⟨_, _ | ⟨_, _ | ⟨_, hp⟩⟩⟩⟩
    · exact ⟨0, by omega, rfl⟩
    · exact ⟨1, by omega, rfl⟩
    · exact ⟨2, by omega, rfl⟩
    · omega
    · cases hp
  · rcases hp with _ | ⟨_, _ | ⟨_, _ | ⟨_, _ | ⟨_, hp⟩⟩⟩⟩
    · exact ⟨0, by omega, rfl⟩
    · exact ⟨1, by omega, rfl⟩
    · exact ⟨2, by omega, rfl⟩
    · exact ⟨3, by omega, rfl⟩
    · cases hp

theorem create_programmed {c : Constants} {create : CreateNode} {size : Word} (hc : c.Lawful)
    (hcreate : CreatesNodes c create) (hsize : size ≠ 0#32) (src dst : Word) :
    Programmed c src dst size (create (nodeConfig c src dst size)).ctcr (computeElemSize src dst size)
      (bufLen size (computeElemSize src dst size)) := by
  obtain ⟨k, hk, helem, hdvd⟩ := computeElemSize_spec hsize src dst
  obtain ⟨hwhole, hleast, hmost, hblock⟩ := transfer_bufLen hsize src dst
  obtain ⟨⟨hsrc, hdst⟩, hlen⟩ := (hdvd k hk).mpr (Nat.le_refl k)
  refine ⟨?_, fun htcm => ?_, ?_, fun p hp htcm hdivides => ?_, hwhole, hleast, hmost, hblock,
    create_fields hc hcreate hsize src dst⟩
  · rw [helem]
    exact elem_power (Nat.le_trans hk (maxExponent_le src dst))
  · rw [maxExponent, if_pos htcm] at hk
    rw [helem]
    exact Nat.pow_le_pow_right Nat.two_pos hk
  · rw [helem]
    exact ⟨hsrc, hdst, hlen⟩
  · obtain ⟨j, hj, rfl⟩ := power_cases hp htcm
    rw [helem]
    exact Nat.pow_le_pow_right Nat.two_pos ((hdvd j hj).mp ⟨⟨hdivides.1, hdivides.2.1⟩, hdivides.2.2⟩)

/-- The constants of the STM32H7. -/
def stm32h7 : Constants where
  srcDatasize
    | .byte => 0#32
    | .halfword => 0x10#32
    | .word => 0x20#32
    | .doubleword => 0x30#32
  destDatasize
    | .byte => 0#32
    | .halfword => 0x40#32
    | .word => 0x80#32
    | .doubleword => 0xC0#32
  srcInc
    | .byte => 0x2#32
    | .halfword => 0x102#32
    | .word => 0x202#32
    | .doubleword => 0x302#32
  destInc
    | .byte => 0x8#32
    | .halfword => 0x408#32
    | .word => 0x808#32
    | .doubleword => 0xC08#32
  sinc := 0x3#32
  sincos := 0x300#32
  dinc := 0xC#32
  dincos := 0xC00#32
  ssize := 0x30#32
  dsize := 0xC0#32
  tlen := 0x1FC0000#32
  tlenPos := 18
  sbus := 0x10000#32
  dbus := 0x20000#32
  dataalignRight := 0#32
  sourceBurstSingle := 0#32
  destBurstSingle := 0#32
  fullTransfer := 0x30000000#32
  priorityVeryHigh := 0xC0#32
  littleEndiannessPreserve := 0#32
  requestSw := 0x40000000#32

/-- Of `CTCR` what the mode decides on. -/
def modeBits (mode : Mode) : Word :=
  mode.dataAlignment ||| mode.sourceBurst ||| mode.destBurst ||| mode.transferTriggerMode |||
    (if mode.request = stm32h7.requestSw then 0xC0000000#32 else 0#32)

def createNode : CreateNode := fun cfg =>
  { ctcr := cfg.ctcrFields stm32h7 ||| modeBits cfg.mode
    cbndtr := (cfg.blockDataLength &&& 0x1FFFF#32) ||| (cfg.mode.blockCount - 1#32) <<< 20
    csar := cfg.srcAddress
    cdar := cfg.dstAddress
    cbrur := (cfg.mode.destBlockAddressOffset <<< 16) ||| cfg.mode.sourceBlockAddressOffset
    clar := 0#32
    ctbr := cfg.mode.request &&& 0xFF#32
    cmar := 0#32
    cmdr := 0#32 }

theorem stm32h7_lawful : stm32h7.Lawful where
  sizes e := by cases e <;> decide
  tlen len hleast hmost := by
    have hall : ∀ n ≤ 128, 1 ≤ n →
        ((BitVec.ofNat 32 n - 1#32) <<< stm32h7.tlenPos) &&& ~~~stm32h7.ctcrMask = 0#32 := by
      decide +kernel
    have hlen := hall len.toNat hmost hleast
    rwa [BitVec.ofNat_toNat, BitVec.setWidth_eq] at hlen
  buses := by decide

theorem createNode_createsNodes : CreatesNodes stm32h7 createNode where
  csar _ := rfl
  cdar _ := rfl
  fields cfg hmode := by
    have hbits : modeBits stm32h7.mode &&& stm32h7.ctcrMask = 0#32 := by decide
    rw [createNode, hmode, BitVec.and_comm, BitVec.and_or_distrib_left, BitVec.and_comm,
      BitVec.and_comm stm32h7.ctcrMask, hbits, BitVec.or_zero]
  others cfg cfg' hmode hmode' hfields hfields' := by
    rw [createNode, createNode, hmode, hmode', BitVec.and_comm, BitVec.and_or_distrib_left,
      BitVec.and_comm, hfields, BitVec.and_comm (cfg'.ctcrFields _ ||| _), BitVec.and_or_distrib_left,
      BitVec.and_comm _ (cfg'.ctcrFields _), hfields']
  request cfg cfg' hmode := by rw [createNode, createNode, hmode]
  routing cfg hmode := by
    have hrequest : stm32h7.mode.request &&& 0xFF#32 &&& (stm32h7.sbus ||| stm32h7.dbus) = 0#32 := by decide
    rw [createNode, hmode]
    exact hrequest
  rest cfg cfg' hmode hlength := by
    rw [createNode, createNode, hmode, hlength]
    exact ⟨rfl, rfl, rfl, rfl⟩

def emptyNode : LinkedListNode := ⟨⟨0#32, 0#32, 0#32, 0#32, 0#32, 0#32, 0#32, 0#32, 0#32⟩, 0#32⟩

end StLib.Mdma.Nodes
