import Mathlib
import StLib.Base.Bytes
import StLib.Base.BoundedCopies

/-! # The frames of SPI orders

`SPIBaseOrder` and `SPIStackOrder`. A copy that leaves a buffer has no result. The pointers
`master_data` and `slave_data` are the payloads behind the header; the callback and the map
of the orders are left out. -/
namespace StLib.Spi.Orders

open StLib.Base.Bytes
open StLib.Base.BoundedCopies

/-! ## Orders -/

/-- `PAYLOAD_OVERHEAD`. -/
def payloadOverhead : Nat := 2

def spiMaximumPayloadSizeBytes : BitVec 16 := 120#16

/-- `SPI_MAXIMUM_PACKET_SIZE_BYTES`, the length of the buffers of an instance. -/
def spiMaximumPacketSizeBytes : Nat := 124

structure Order where
  id : BitVec 16
  misoPayload : List Byte
  mosiPayload : List Byte
  payloadSize : BitVec 16
  crcIndex : BitVec 32
  masterDataSize : BitVec 16
  slaveDataSize : BitVec 16
deriving DecidableEq

section Construction

variable (id masterDataSize slaveDataSize : BitVec 16)

/-- The field `payload_size`, with `PAYLOAD_OVERHEAD` and `PAYLOAD_TAIL`. -/
def payloadSize : BitVec 16 :=
  if slaveDataSize < masterDataSize then masterDataSize + 2#16 + 2#16 else slaveDataSize + 2#16 + 2#16

/-- The messages of the constructor. -/
def panics : List String :=
  (if id = 0#16 then
    ["Cannot use 0 as the SPIOrderID, as it is reserved to the no Order ready signal"] else []) ++
  (if spiMaximumPayloadSizeBytes < payloadSize masterDataSize slaveDataSize then
    [s!"Cannot declare SPIOrder {id.toNat} as its size surpasses the maximum data size"] else [])

/-- What the constructor writes into a payload. -/
def header (crcIndex : BitVec 32) (payload : List Byte) : Option (List Byte) := do
  let payload ← store payload 0 (lowByte id)
  let payload ← store payload 1 (highByte id)
  let payload ← store payload crcIndex.toNat (lowByte id)
  store payload (crcIndex + 1#32).toNat (highByte id)

/-- The constructor of `SPIBaseOrder`. -/
def construct : Option Order := do
  let payloadSize := payloadSize masterDataSize slaveDataSize
  let crcIndex := payloadSize.setWidth 32 - 2#32
  let misoPayload ← header id crcIndex (List.replicate payloadSize.toNat 0#8)
  let mosiPayload ← header id crcIndex (List.replicate payloadSize.toNat 0#8)
  return { id, misoPayload, mosiPayload, payloadSize, crcIndex, masterDataSize, slaveDataSize }

end Construction

def loadDmaBuffer (dmaBuffer : List Byte) (dmaAt : Nat) (spiBuffer : List Byte) (spiAt : Nat)
    (bufferSize : BitVec 16) (startCopyByte : Nat) : Option (List Byte) :=
  memcpy dmaBuffer dmaAt spiBuffer (spiAt + startCopyByte) bufferSize.toNat

def readDmaBuffer (dmaBuffer : List Byte) (dmaAt : Nat) (spiBuffer : List Byte) (spiAt : Nat)
    (bufferSize : BitVec 16) (startCopyByte : Nat) : Option (List Byte) :=
  memcpy spiBuffer spiAt dmaBuffer (dmaAt + startCopyByte) bufferSize.toNat

namespace Order

variable (o : Order)

def masterData : List Byte := (o.mosiPayload.drop payloadOverhead).take o.masterDataSize.toNat

def slaveData : List Byte := (o.misoPayload.drop payloadOverhead).take o.slaveDataSize.toNat

/-- What the user of the order writes into `master_data`. -/
def setMasterData (bytes : List Byte) : Option Order := do
  let mosiPayload ← memcpy o.mosiPayload payloadOverhead bytes 0 o.masterDataSize.toNat
  return { o with mosiPayload }

def setSlaveData (bytes : List Byte) : Option Order := do
  let misoPayload ← memcpy o.misoPayload payloadOverhead bytes 0 o.slaveDataSize.toNat
  return { o with misoPayload }

def masterPrepareBuffer (txBuffer : List Byte) : Option (List Byte) :=
  loadDmaBuffer txBuffer 0 o.mosiPayload payloadOverhead (o.masterDataSize + 2#16) 0

def slavePrepareBuffer (txBuffer : List Byte) : Option (List Byte) :=
  loadDmaBuffer txBuffer 0 o.misoPayload 0 o.payloadSize 0

def masterProcessCallback (rxBuffer : List Byte) : Option Order := do
  let misoPayload ← loadDmaBuffer o.misoPayload payloadOverhead rxBuffer 0 o.slaveDataSize 0
  return { o with misoPayload }

def slaveProcessCallback (rxBuffer : List Byte) : Option Order := do
  let mosiPayload ←
    loadDmaBuffer o.mosiPayload payloadOverhead rxBuffer 0 o.masterDataSize payloadOverhead
  return { o with mosiPayload }

end Order

/-! `SPIStackOrder`: `built` is what `build` of the packet returns. -/
namespace Stack

variable (o : Order)

def masterPrepareBuffer (built txBuffer : List Byte) : Option (List Byte) := do
  let o ← o.setMasterData built
  loadDmaBuffer txBuffer 0 o.mosiPayload payloadOverhead (o.payloadSize - 2#16) 0

def slavePrepareBuffer (built txBuffer : List Byte) : Option (List Byte) := do
  let o ← o.setSlaveData built
  loadDmaBuffer txBuffer 0 o.misoPayload 0 o.payloadSize 0

/-- `parse` of the packet is given `slave_data`. -/
def masterProcessCallback (rxBuffer : List Byte) : Option Order := do
  let misoPayload ← readDmaBuffer rxBuffer 0 o.misoPayload payloadOverhead o.slaveDataSize 0
  return { o with misoPayload }

def slaveProcessCallback (rxBuffer : List Byte) : Option Order := do
  let mosiPayload ←
    readDmaBuffer rxBuffer 0 o.mosiPayload payloadOverhead o.masterDataSize payloadOverhead
  return { o with mosiPayload }

end Stack

/-! ## The wire -/

namespace Order

variable (o : Order)

/-- The master sends the id, and then the buffer. -/
def masterFrame (txBuffer : List Byte) : List Byte :=
  bytesOfWord o.id ++ txBuffer.take (o.payloadSize.toNat - payloadOverhead)

def slaveFrame (txBuffer : List Byte) : List Byte := txBuffer.take o.payloadSize.toNat

/-- The frame carries the id again. -/
def Tail (frame : List Byte) : Prop :=
  frame[o.crcIndex.toNat]? = some (lowByte o.id) ∧ frame[o.crcIndex.toNat + 1]? = some (highByte o.id)

end Order

/-- A buffer that has received bytes. -/
def received (rxBuffer bytes : List Byte) : List Byte := bytes ++ rxBuffer.drop bytes.length

/-- The payloads, and what the buffers of the two sides held before. -/
structure Contents (masterDataSize slaveDataSize : BitVec 16) where
  masterPayload : List Byte
  slavePayload : List Byte
  masterTx : List Byte
  slaveTx : List Byte
  masterRx : List Byte
  slaveRx : List Byte
  master_length : masterPayload.length = masterDataSize.toNat
  slave_length : slavePayload.length = slaveDataSize.toNat
  masterTx_length : masterTx.length = spiMaximumPacketSizeBytes
  slaveTx_length : slaveTx.length = spiMaximumPacketSizeBytes
  masterRx_length : masterRx.length = spiMaximumPacketSizeBytes
  slaveRx_length : slaveRx.length = spiMaximumPacketSizeBytes

/-- An order on both sides, with `tx` and `tx'` the buffers once they are prepared. -/
structure Transfers {m s : BitVec 16} (c : Contents m s) (blank master slave : Order) (tx tx' : List Byte) :
    Prop where
  filled : blank.setMasterData c.masterPayload = some master
  filled' : blank.setSlaveData c.slavePayload = some slave
  prepared : master.masterPrepareBuffer c.masterTx = some tx
  prepared' : slave.slavePrepareBuffer c.slaveTx = some tx'
  tail : master.Tail (master.masterFrame tx)
  tail' : slave.Tail (slave.slaveFrame tx')
  slaveRecovers : ∃ o, slave.slaveProcessCallback (received c.slaveRx (master.masterFrame tx)) = some o ∧
    o.masterData = c.masterPayload
  masterRecovers : ∃ o, master.masterProcessCallback
      (received c.masterRx ((slave.slaveFrame tx').drop payloadOverhead)) = some o ∧
    o.slaveData = c.slavePayload
  stack : ∃ stackTx, Stack.masterPrepareBuffer blank c.masterPayload c.masterTx = some stackTx ∧
    blank.masterFrame stackTx = master.masterFrame tx
  stack' : ∃ stackTx, Stack.slavePrepareBuffer blank c.slavePayload c.slaveTx = some stackTx ∧
    blank.slaveFrame stackTx = slave.slaveFrame tx'
  stackRecovers : ∀ rx, Stack.slaveProcessCallback slave rx = slave.slaveProcessCallback rx ∧
    Stack.masterProcessCallback master rx = master.masterProcessCallback rx

/-- The order works for all contents. -/
def Works (id masterDataSize slaveDataSize : BitVec 16) : Prop :=
  ∀ c : Contents masterDataSize slaveDataSize, ∃ blank master slave tx tx',
    construct id masterDataSize slaveDataSize = some blank ∧ Transfers c blank master slave tx tx'

/-! ## Framed payloads -/

def framed (id : BitVec 16) (body : List Byte) : List Byte := bytesOfWord id ++ body ++ bytesOfWord id

section Framed

variable {id : BitVec 16} {payload body pad tx x y : List Byte} {n k j : Nat} {crcIndex : BitVec 32}

theorem framed_length (id : BitVec 16) (body : List Byte) : (framed id body).length = body.length + 4 := by
  simp only [framed, bytesOfWord, List.length_append, List.length_cons, List.length_nil]
  omega

theorem framed_tail (hindex : k = body.length + 2) :
    (framed id body)[k]? = some (lowByte id) ∧ (framed id body)[k + 1]? = some (highByte id) := by
  subst hindex
  have hlength : (bytesOfWord id ++ body).length = body.length + 2 := by
    rw [List.length_append]
    exact Nat.add_comm ..
  rw [framed, List.getElem?_append_right (by omega), List.getElem?_append_right (by omega), hlength,
    Nat.sub_self, Nat.add_sub_cancel_left]
  exact ⟨rfl, rfl⟩

/-- The constructor frames a payload of zeros. -/
theorem header_eq (hindex : crcIndex.toNat = n + 2) (hsmall : n < 2 ^ 16) :
    header id crcIndex (List.replicate (n + 4) 0#8) = some (framed id (List.replicate n 0#8)) := by
  have hone : (1#32 : BitVec 32).toNat = 1 := rfl
  have hnext : (crcIndex + 1#32).toNat = n + 3 := by
    rw [BitVec.toNat_add, hindex, hone]
    omega
  have hzeros : List.replicate (n + 4) 0#8 = [] ++ 0#8 :: 0#8 :: (List.replicate n 0#8 ++ [0#8, 0#8]) := by
    change 0#8 :: 0#8 :: List.replicate (n + 2) 0#8 = _
    rw [List.replicate_add]
    rfl
  have hlow : n + 2 = (lowByte id :: highByte id :: List.replicate n 0#8).length := by
    rw [List.length_cons, List.length_cons, List.length_replicate]
  have hhigh : n + 3 = (lowByte id :: highByte id :: (List.replicate n 0#8 ++ [lowByte id])).length := by
    rw [List.length_cons, List.length_cons, List.length_append, List.length_replicate]
    rfl
  have hfirst : 0 = ([] : List Byte).length := rfl
  have hsecond : 1 = [lowByte id].length := rfl
  rw [header, hzeros, hindex, hnext, store_append _ _ hfirst]
  change (store ([lowByte id] ++ 0#8 :: _) 1 _ >>= fun payload => _) = _
  rw [store_append _ _ hsecond]
  change (store ((lowByte id :: highByte id :: List.replicate n 0#8) ++ 0#8 :: [0#8]) _ _ >>= fun _ => _) = _
  rw [store_append _ _ hlow]
  have hbehind : (lowByte id :: highByte id :: List.replicate n 0#8) ++ [lowByte id, 0#8] =
      (lowByte id :: highByte id :: (List.replicate n 0#8 ++ [lowByte id])) ++ [0#8] := by
    rw [List.cons_append, List.cons_append, List.cons_append, List.cons_append, List.append_assoc]
    rfl
  change store (_ ++ [lowByte id, 0#8]) _ _ = _
  rw [hbehind, store_append _ _ hhigh, List.cons_append, List.cons_append, List.append_assoc]
  rfl

/-- A payload is put into the frame. -/
theorem memcpy_payload (id : BitVec 16) (hpayload : payload.length = k) (hle : k ≤ n) :
    memcpy (framed id (List.replicate n 0#8)) 2 payload 0 k =
      some (framed id (payload ++ List.replicate (n - k) 0#8)) := by
  have hsplit : List.replicate n 0#8 = List.replicate k 0#8 ++ List.replicate (n - k) 0#8 := by
    rw [List.replicate_append_replicate, Nat.add_sub_cancel' hle]
  have hcopy : memcpy (bytesOfWord id ++ List.replicate k 0#8 ++ (List.replicate (n - k) 0#8 ++ bytesOfWord id))
      2 ([] ++ payload ++ []) 0 k =
      some (bytesOfWord id ++ payload ++ (List.replicate (n - k) 0#8 ++ bytesOfWord id)) :=
    memcpy_append rfl rfl List.length_replicate hpayload
  rw [List.nil_append, List.append_nil] at hcopy
  rw [framed, framed, hsplit]
  simpa only [List.append_assoc] using hcopy

theorem framed_data (hpayload : payload.length = k) : ((framed id (payload ++ pad)).drop 2).take k = payload := by
  change (payload ++ pad ++ bytesOfWord id).take k = payload
  rw [List.append_assoc, List.take_left' hpayload]

/-- A block is put at the beginning of a transmit buffer. -/
theorem memcpy_prepared (hbody : body.length = k) (hle : k ≤ tx.length) (hx : x.length = j) :
    memcpy tx 0 (x ++ body ++ y) j k = some (body ++ tx.drop k) := by
  have hcopy : memcpy ([] ++ tx.take k ++ tx.drop k) 0 (x ++ body ++ y) j k =
      some ([] ++ body ++ tx.drop k) := memcpy_append rfl hx.symm (List.length_take_of_le hle) hbody
  rwa [List.nil_append, List.nil_append, List.take_append_drop] at hcopy

end Framed

/-! ## Orders that work -/

section Working

variable {id m s : BitVec 16} {c : Contents m s}

/-- An order whose payloads are framed. -/
def framedOrder (id m s : BitVec 16) (mosi miso : List Byte) : Order where
  id := id
  misoPayload := framed id miso
  mosiPayload := framed id mosi
  payloadSize := payloadSize m s
  crcIndex := (payloadSize m s).setWidth 32 - 2#32
  masterDataSize := m
  slaveDataSize := s

theorem payloadSize_toNat (hle : s ≤ m) (hsmall : m.toNat + 4 ≤ 120) : (payloadSize m s).toNat = m.toNat + 4 := by
  have hle : s.toNat ≤ m.toNat := BitVec.le_def.mp hle
  have htwo : (2#16 : BitVec 16).toNat = 2 := rfl
  rw [payloadSize]
  split
  · rw [BitVec.toNat_add, BitVec.toNat_add, htwo]
    omega
  · next hge =>
    have hge : ¬ s.toNat < m.toNat := fun hlt => hge (BitVec.lt_def.mpr hlt)
    rw [BitVec.toNat_add, BitVec.toNat_add, htwo]
    omega

theorem crcIndex_toNat (hle : s ≤ m) (hsmall : m.toNat + 4 ≤ 120) :
    ((payloadSize m s).setWidth 32 - 2#32).toNat = m.toNat + 2 := by
  have htwo : (2#32 : BitVec 32).toNat = 2 := rfl
  rw [BitVec.toNat_sub, BitVec.toNat_setWidth, payloadSize_toNat hle hsmall, htwo]
  omega

theorem construct_eq (id : BitVec 16) (hle : s ≤ m) (hsmall : m.toNat + 4 ≤ 120) :
    construct id m s =
      some (framedOrder id m s (List.replicate m.toNat 0#8) (List.replicate m.toNat 0#8)) := by
  rw [construct, payloadSize_toNat hle hsmall, header_eq (crcIndex_toNat hle hsmall) (by omega)]
  rfl

section Frames

variable {payload tx rx mosi miso : List Byte}

theorem sum_toNat (hsmall : m.toNat + 4 ≤ 120) : (m + 2#16).toNat = m.toNat + 2 := by
  have htwo : (2#16 : BitVec 16).toNat = 2 := rfl
  rw [BitVec.toNat_add, htwo]
  omega

/-- Both kinds of order copy as much. -/
theorem stack_size (hle : s ≤ m) (hsmall : m.toNat + 4 ≤ 120) : payloadSize m s - 2#16 = m + 2#16 := by
  have htwo : (2#16 : BitVec 16).toNat = 2 := rfl
  apply BitVec.eq_of_toNat_eq
  rw [sum_toNat hsmall, BitVec.toNat_sub, payloadSize_toNat hle hsmall, htwo]
  omega

theorem setMasterData_eq (id s : BitVec 16) (hpayload : payload.length = m.toNat) (miso : List Byte) :
    (framedOrder id m s (List.replicate m.toNat 0#8) miso).setMasterData payload =
      some (framedOrder id m s payload miso) := by
  have hcopy := memcpy_payload id hpayload (Nat.le_refl _)
  rw [Nat.sub_self, List.replicate_zero, List.append_nil] at hcopy
  change (memcpy (framed id (List.replicate m.toNat 0#8)) 2 payload 0 m.toNat >>= fun _ => _) = _
  rw [hcopy]
  rfl

theorem setSlaveData_eq (id : BitVec 16) (hle : s.toNat ≤ m.toNat) (hpayload : payload.length = s.toNat)
    (mosi : List Byte) :
    (framedOrder id m s mosi (List.replicate m.toNat 0#8)).setSlaveData payload =
      some (framedOrder id m s mosi (payload ++ List.replicate (m.toNat - s.toNat) 0#8)) := by
  change (memcpy (framed id (List.replicate m.toNat 0#8)) 2 payload 0 s.toNat >>= fun _ => _) = _
  rw [memcpy_payload id hpayload hle]
  rfl

theorem masterPrepareBuffer_eq (id s : BitVec 16) (hsmall : m.toNat + 4 ≤ 120) (hpayload : payload.length = m.toNat)
    (htx : tx.length = spiMaximumPacketSizeBytes) (miso : List Byte) :
    (framedOrder id m s payload miso).masterPrepareBuffer tx =
      some (payload ++ bytesOfWord id ++ tx.drop (m.toNat + 2)) := by
  have hbody : (payload ++ bytesOfWord id).length = m.toNat + 2 := by
    rw [List.length_append, hpayload]
    rfl
  have hroom : m.toNat + 2 ≤ tx.length := by
    rw [htx, spiMaximumPacketSizeBytes]
    omega
  have hcopy : memcpy tx 0 (bytesOfWord id ++ (payload ++ bytesOfWord id) ++ []) 2 (m.toNat + 2) =
      some (payload ++ bytesOfWord id ++ tx.drop (m.toNat + 2)) := memcpy_prepared hbody hroom rfl
  rw [List.append_nil, ← List.append_assoc] at hcopy
  change memcpy tx 0 (framed id payload) 2 (m + 2#16).toNat = _
  rw [sum_toNat hsmall]
  exact hcopy

theorem slavePrepareBuffer_eq (id : BitVec 16) (hle : s ≤ m) (hsmall : m.toNat + 4 ≤ 120) (hmiso : miso.length = m.toNat)
    (htx : tx.length = spiMaximumPacketSizeBytes) (mosi : List Byte) :
    (framedOrder id m s mosi miso).slavePrepareBuffer tx =
      some (framed id miso ++ tx.drop (m.toNat + 4)) := by
  have hbody : (framed id miso).length = m.toNat + 4 := (framed_length id miso).trans (by rw [hmiso])
  have hroom : m.toNat + 4 ≤ tx.length := by
    rw [htx, spiMaximumPacketSizeBytes]
    omega
  have hcopy : memcpy tx 0 ([] ++ framed id miso ++ []) 0 (m.toNat + 4) =
      some (framed id miso ++ tx.drop (m.toNat + 4)) := memcpy_prepared hbody hroom rfl
  rw [List.append_nil, List.nil_append] at hcopy
  change memcpy tx 0 (framed id miso) 0 (payloadSize m s).toNat = _
  rw [payloadSize_toNat hle hsmall]
  exact hcopy

theorem masterFrame_eq (hle : s ≤ m) (hsmall : m.toNat + 4 ≤ 120) (hpayload : payload.length = m.toNat)
    (mosi miso rest : List Byte) :
    (framedOrder id m s mosi miso).masterFrame (payload ++ bytesOfWord id ++ rest) = framed id payload := by
  have hbody : (payload ++ bytesOfWord id).length = (payloadSize m s).toNat - payloadOverhead := by
    rw [List.length_append, hpayload, payloadSize_toNat hle hsmall]
    rfl
  change bytesOfWord id ++ (payload ++ bytesOfWord id ++ rest).take ((payloadSize m s).toNat - payloadOverhead) = _
  rw [List.take_left' hbody, framed, List.append_assoc]

theorem slaveFrame_eq (hle : s ≤ m) (hsmall : m.toNat + 4 ≤ 120) (hmiso : miso.length = m.toNat)
    (mosi miso' rest : List Byte) :
    (framedOrder id m s mosi miso').slaveFrame (framed id miso ++ rest) = framed id miso :=
  List.take_left' ((framed_length id miso).trans (by rw [hmiso, ← payloadSize_toNat hle hsmall]; rfl))

theorem tail_framed (hle : s ≤ m) (hsmall : m.toNat + 4 ≤ 120) (hpayload : payload.length = m.toNat)
    (mosi miso : List Byte) : (framedOrder id m s mosi miso).Tail (framed id payload) :=
  framed_tail ((crcIndex_toNat hle hsmall).trans (by rw [hpayload]))

theorem slaveProcessCallback_eq (hpayload : payload.length = m.toNat) (rx mosi miso : List Byte)
    (hmosi : mosi.length = m.toNat) :
    ∃ o, (framedOrder id m s mosi miso).slaveProcessCallback (received rx (framed id payload)) = some o ∧
      o.masterData = payload := by
  have hcopy : memcpy (bytesOfWord id ++ mosi ++ bytesOfWord id) 2
      (bytesOfWord id ++ payload ++ (bytesOfWord id ++ rx.drop (framed id payload).length)) 2 m.toNat =
      some (bytesOfWord id ++ payload ++ bytesOfWord id) := memcpy_append rfl rfl hmosi hpayload
  rw [← List.append_assoc] at hcopy
  refine ⟨framedOrder id m s payload miso, ?_, ?_⟩
  · change (memcpy (bytesOfWord id ++ mosi ++ bytesOfWord id) 2
      (bytesOfWord id ++ payload ++ bytesOfWord id ++ rx.drop (framed id payload).length) 2 m.toNat >>=
      fun _ => _) = _
    rw [hcopy]
    rfl
  · have hdata : ((framed id (payload ++ [])).drop 2).take m.toNat = payload := framed_data hpayload
    rwa [List.append_nil] at hdata

theorem masterProcessCallback_eq (hpayload : payload.length = s.toNat) (rx pad pad' zeros mosi : List Byte)
    (hzeros : zeros.length = s.toNat) :
    ∃ o, (framedOrder id m s mosi (zeros ++ pad')).masterProcessCallback
        (received rx ((framed id (payload ++ pad)).drop payloadOverhead)) = some o ∧
      o.slaveData = payload := by
  have hcopy : memcpy (bytesOfWord id ++ zeros ++ (pad' ++ bytesOfWord id)) 2
      ([] ++ payload ++ (pad ++ bytesOfWord id ++
        rx.drop ((framed id (payload ++ pad)).drop payloadOverhead).length)) 0 s.toNat =
      some (bytesOfWord id ++ payload ++ (pad' ++ bytesOfWord id)) := memcpy_append rfl rfl hzeros hpayload
  have hdst : bytesOfWord id ++ zeros ++ (pad' ++ bytesOfWord id) = framed id (zeros ++ pad') := by
    rw [framed, List.append_assoc, List.append_assoc, List.append_assoc]
  have hsrc : [] ++ payload ++ (pad ++ bytesOfWord id ++
      rx.drop ((framed id (payload ++ pad)).drop payloadOverhead).length) =
      received rx ((framed id (payload ++ pad)).drop payloadOverhead) := by
    rw [received, List.nil_append]
    change _ = payload ++ pad ++ bytesOfWord id ++ _
    rw [List.append_assoc payload pad, List.append_assoc payload]
  have hresult : bytesOfWord id ++ payload ++ (pad' ++ bytesOfWord id) = framed id (payload ++ pad') := by
    rw [framed, List.append_assoc, List.append_assoc, List.append_assoc]
  rw [hdst, hsrc, hresult] at hcopy
  refine ⟨framedOrder id m s mosi (payload ++ pad'), ?_, framed_data hpayload⟩
  change (memcpy (framed id (zeros ++ pad')) 2
    (received rx ((framed id (payload ++ pad)).drop payloadOverhead)) 0 s.toNat >>= fun _ => _) = _
  rw [hcopy]
  rfl

end Frames

theorem transfers_of_le (id : BitVec 16) (hle : s ≤ m) (hsmall : m.toNat + 4 ≤ 120) (c : Contents m s) :
    ∃ master slave tx tx', Transfers c
      (framedOrder id m s (List.replicate m.toNat 0#8) (List.replicate m.toNat 0#8)) master slave tx tx' := by
  have hle' : s.toNat ≤ m.toNat := BitVec.le_def.mp hle
  have hmiso : (c.slavePayload ++ List.replicate (m.toNat - s.toNat) 0#8).length = m.toNat := by
    rw [List.length_append, List.length_replicate, c.slave_length, Nat.add_sub_cancel' hle']
  have hmaster := masterPrepareBuffer_eq id s hsmall c.master_length c.masterTx_length
    (List.replicate m.toNat 0#8)
  have hslave := slavePrepareBuffer_eq id hle hsmall hmiso c.slaveTx_length (List.replicate m.toNat 0#8)
  have hzeros : List.replicate m.toNat 0#8 =
      List.replicate s.toNat 0#8 ++ List.replicate (m.toNat - s.toNat) 0#8 := by
    rw [List.replicate_append_replicate, Nat.add_sub_cancel' hle']
  refine ⟨_, _, _, _, setMasterData_eq id s c.master_length _, setSlaveData_eq id hle' c.slave_length _,
    hmaster, hslave, ?_, ?_, ?_, ?_, ⟨_, ?_, rfl⟩, ⟨_, ?_, rfl⟩, fun _ => ⟨rfl, rfl⟩⟩
  · rw [masterFrame_eq hle hsmall c.master_length]
    exact tail_framed hle hsmall c.master_length _ _
  · rw [slaveFrame_eq hle hsmall hmiso]
    exact tail_framed hle hsmall hmiso _ _
  · rw [masterFrame_eq hle hsmall c.master_length]
    exact slaveProcessCallback_eq c.master_length _ _ _ List.length_replicate
  · rw [slaveFrame_eq hle hsmall hmiso, hzeros]
    exact masterProcessCallback_eq c.slave_length _ _ _ _ _ List.length_replicate
  · rw [Stack.masterPrepareBuffer, setMasterData_eq id s c.master_length]
    change memcpy c.masterTx 0 (framed id c.masterPayload) 2 (payloadSize m s - 2#16).toNat = _
    rw [stack_size hle hsmall]
    exact hmaster
  · rw [Stack.slavePrepareBuffer, setSlaveData_eq id hle' c.slave_length]
    exact hslave

/-! ### Orders that do not

The copies fit in the payloads only when `payload_size` has not wrapped, and behind what
`master_prepare_buffer` copies the buffer keeps what it held. -/

section Failing

variable {crcIndex : BitVec 32} {payload bytes r : List Byte} {o o' : Order}

theorem header_length (h : header id crcIndex payload = some r) : r.length = payload.length := by
  simp only [header, Option.bind_eq_bind, Option.bind_eq_some_iff] at h
  obtain ⟨first, hfirst, second, hsecond, third, hthird, hr⟩ := h
  rw [store_length hr, store_length hthird, store_length hsecond, store_length hfirst]

theorem construct_some (h : construct id m s = some o) :
    ∃ miso mosi, miso.length = (payloadSize m s).toNat ∧ mosi.length = (payloadSize m s).toNat ∧
      o = ⟨id, miso, mosi, payloadSize m s, (payloadSize m s).setWidth 32 - 2#32, m, s⟩ := by
  simp only [construct, Option.bind_eq_bind, Option.bind_eq_some_iff] at h
  obtain ⟨miso, hmiso, mosi, hmosi, ho⟩ := h
  refine ⟨miso, mosi, ?_, ?_, (Option.some.inj ho).symm⟩
  · rw [header_length hmiso, List.length_replicate]
  · rw [header_length hmosi, List.length_replicate]

theorem setMasterData_some (h : o.setMasterData bytes = some o') :
    ∃ mosi, memcpy o.mosiPayload payloadOverhead bytes 0 o.masterDataSize.toNat = some mosi ∧
      o' = { o with mosiPayload := mosi } := by
  simp only [Order.setMasterData, Option.bind_eq_bind, Option.bind_eq_some_iff] at h
  obtain ⟨mosi, hcopy, ho⟩ := h
  exact ⟨mosi, hcopy, (Option.some.inj ho).symm⟩

theorem setSlaveData_some (h : o.setSlaveData bytes = some o') :
    ∃ miso, memcpy o.misoPayload payloadOverhead bytes 0 o.slaveDataSize.toNat = some miso ∧
      o' = { o with misoPayload := miso } := by
  simp only [Order.setSlaveData, Option.bind_eq_bind, Option.bind_eq_some_iff] at h
  obtain ⟨miso, hcopy, ho⟩ := h
  exact ⟨miso, hcopy, (Option.some.inj ho).symm⟩

theorem le_of_panics (h : panics id m s = []) : (payloadSize m s).toNat ≤ 120 := by
  rw [panics, List.append_eq_nil_iff] at h
  by_contra hlarge
  have hover : spiMaximumPayloadSizeBytes < payloadSize m s := BitVec.lt_def.mpr (Nat.lt_of_not_le hlarge)
  rw [if_pos hover] at h
  exact absurd h.2 (List.cons_ne_nil _ _)

/-- A `payload_size` with room for both payloads has not wrapped. -/
theorem payloadSize_of_room (hm : 2 + m.toNat ≤ (payloadSize m s).toNat)
    (hs : 2 + s.toNat ≤ (payloadSize m s).toNat) :
    (payloadSize m s).toNat = max m.toNat s.toNat + 4 := by
  have htwo : (2#16 : BitVec 16).toNat = 2 := rfl
  have hmlt := m.isLt
  have hslt := s.isLt
  rw [payloadSize] at hm hs ⊢
  split at hm
  · next hlt =>
    have hlt' : s.toNat < m.toNat := BitVec.lt_def.mp hlt
    rw [if_pos hlt] at hs ⊢
    rw [BitVec.toNat_add, BitVec.toNat_add, htwo] at hm ⊢
    omega
  · next hge =>
    have hge' : ¬ s.toNat < m.toNat := fun hlt => hge (BitVec.lt_def.mpr hlt)
    rw [if_neg hge] at hs ⊢
    rw [BitVec.toNat_add, BitVec.toNat_add, htwo] at hs ⊢
    omega

/-- Contents whose transmit buffer disagrees with the tail everywhere. -/
def staleContents (id m s : BitVec 16) : Contents m s where
  masterPayload := List.replicate m.toNat 0#8
  slavePayload := List.replicate s.toNat 0#8
  masterTx := List.replicate spiMaximumPacketSizeBytes (~~~highByte id)
  slaveTx := List.replicate spiMaximumPacketSizeBytes 0#8
  masterRx := List.replicate spiMaximumPacketSizeBytes 0#8
  slaveRx := List.replicate spiMaximumPacketSizeBytes 0#8
  master_length := List.length_replicate
  slave_length := List.length_replicate
  masterTx_length := List.length_replicate
  slaveTx_length := List.length_replicate
  masterRx_length := List.length_replicate
  slaveRx_length := List.length_replicate

theorem not_ne_self (b : Byte) : ~~~b ≠ b := by
  intro h
  have hbit : (~~~b).getLsbD 0 = b.getLsbD 0 := congrArg (fun v => v.getLsbD 0) h
  rw [BitVec.getLsbD_not] at hbit
  simp at hbit

/-- A master payload that is shorter leaves the tail behind the copy. -/
theorem stale_tail {blank master slave : Order} {tx tx' : List Byte}
    (hconstruct : construct id m s = some blank)
    (htransfers : Transfers (staleContents id m s) blank master slave tx tx') (hlt : m.toNat < s.toNat)
    (hsize : (payloadSize m s).toNat = s.toNat + 4) (hfits : s.toNat + 4 ≤ 120) : False := by
  obtain ⟨miso, mosi, hmiso, hmosi, rfl⟩ := construct_some hconstruct
  obtain ⟨mosi', hcopy, rfl⟩ := setMasterData_some htransfers.filled
  have htwo : (2#32 : BitVec 32).toNat = 2 := rfl
  have hindex : ((payloadSize m s).setWidth 32 - 2#32).toNat = s.toNat + 2 := by
    rw [BitVec.toNat_sub, BitVec.toNat_setWidth, hsize, htwo]
    omega
  have hprepared : memcpy (staleContents id m s).masterTx 0 mosi' 2 (m + 2#16).toNat = some tx :=
    htransfers.prepared
  have hstale : tx[s.toNat + 1]? = some (~~~highByte id) := by
    have hin : s.toNat + 1 < spiMaximumPacketSizeBytes := by
      rw [spiMaximumPacketSizeBytes]
      omega
    rw [memcpy_beyond hprepared (by rw [sum_toNat (by omega)]; omega)]
    exact List.getElem?_replicate_of_lt hin
  have htail : (bytesOfWord id ++ tx.take ((payloadSize m s).toNat - 2))[
      ((payloadSize m s).setWidth 32 - 2#32).toNat + 1]? = some (highByte id) := htransfers.tail.2
  have hsent : (tx.take (s.toNat + 2))[s.toNat + 1]? = tx[s.toNat + 1]? :=
    List.getElem?_take_of_lt (Nat.lt_succ_self _)
  rw [hindex, hsize] at htail
  change (tx.take (s.toNat + 2))[s.toNat + 1]? = _ at htail
  rw [hsent, hstale] at htail
  exact not_ne_self _ (Option.some.inj htail)

end Failing

/-- An accepted order works exactly when the master's payload is the longer one and
`payload_size` has not wrapped. -/
theorem order_works_iff (id m s : BitVec 16) (haccepted : panics id m s = []) :
    Works id m s ↔ s ≤ m ∧ m.toNat + 4 ≤ 120 := by
  constructor
  · intro hworks
    obtain ⟨blank, master, slave, tx, tx', hconstruct, htransfers⟩ := hworks (staleContents id m s)
    obtain ⟨miso, mosi, hmiso, hmosi, hblank⟩ := construct_some hconstruct
    have hm : 2 + m.toNat ≤ (payloadSize m s).toNat := by
      obtain ⟨_, hcopy, -⟩ := setMasterData_some htransfers.filled
      subst hblank
      exact hmosi ▸ (memcpy_bounds hcopy).1
    have hs : 2 + s.toNat ≤ (payloadSize m s).toNat := by
      obtain ⟨_, hcopy, -⟩ := setSlaveData_some htransfers.filled'
      subst hblank
      exact hmiso ▸ (memcpy_bounds hcopy).1
    have hsize := payloadSize_of_room hm hs
    have hfits := le_of_panics haccepted
    have hle : s.toNat ≤ m.toNat := by
      by_contra hlt
      exact stale_tail hconstruct htransfers (by omega) (by omega) (by omega)
    exact ⟨BitVec.le_def.mpr hle, by omega⟩
  · intro ⟨hle, hsmall⟩ c
    obtain ⟨master, slave, tx, tx', htransfers⟩ := transfers_of_le id hle hsmall c
    exact ⟨_, master, slave, tx, tx', construct_eq id hle hsmall, htransfers⟩

end Working

theorem order_works_three_bytes :
    panics 2#16 3#16 1#16 = [] ∧ Works 2#16 3#16 1#16 :=
  ⟨by decide, (order_works_iff 2#16 3#16 1#16 (by decide)).mpr (by decide)⟩

/-- The bytes of the tail are not copied. -/
theorem shorter_master_fails : panics 2#16 1#16 3#16 = [] ∧ ¬ Works 2#16 1#16 3#16 := by
  refine ⟨by decide, fun hworks => ?_⟩
  obtain ⟨blank, master, slave, tx, tx', hconstruct, htransfers⟩ := hworks (staleContents 2#16 1#16 3#16)
  exact stale_tail hconstruct htransfers (by decide) (by decide) (by decide)

end StLib.Spi.Orders
