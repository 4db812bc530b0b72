import StLib.Base.FixedLayout
import StLib.Flash.StorerSlots
import StLib.Flash.Writes

/-! # When the variables are kept

Stores at several times and then `read`. -/
namespace StLib.Flash.Persistence

open StLib.Base.Bytes
open StLib.Base.FixedLayout
open StLib.Base.LinkedCopies hiding read
open StLib.Base.PackedRegions
open Model (Word Hal)
open Storer StorerSlots

/-! ## Runs of stores -/

inductive Call where
  | storeAll
  | store (pointers : List Nat)
deriving DecidableEq

/-- A call, the memory at its time, and what the blocks that it allocates hold. -/
structure Event where
  call : Call
  memory : Memory
  heap : Nat → Memory

def Event.stores (e : Event) (v : FlashVariable) : Bool :=
  match e.call with
  | .storeAll => true
  | .store pointers => v.address ∈ pointers

/-- The memory when a variable was last stored. -/
def lastStored (v : FlashVariable) : List Event → Option Memory
  | [] => none
  | e :: events => (lastStored v events).or (if e.stores v then some e.memory else none)

section Run

variable {σ : Type} (flash : Driver σ) (storer : FlashStorer)

def Event.run (e : Event) (s : σ) : Option (Bool × σ) :=
  match e.call with
  | .storeAll => Storer.storeAll flash storer (e.heap 0) e.memory s
  | .store pointers => storeEach flash storer e.memory pointers e.heap s

def runEvents : List Event → σ → Option (Bool × σ)
  | [], s => some (true, s)
  | e :: events, s => do
    let (stored, s) ← e.run flash storer s
    let (rest, s) ← runEvents events s
    return (stored && rest, s)

end Run

/-! ## The property -/

/-- Where all variables were stored, they get the values from when they were last stored. -/
def Restores {σ : Type} (flash : Driver σ) (storer : FlashStorer) (s : σ) : Prop :=
  ∀ events heap memory, (∀ v ∈ storer.variableList, ∃ e ∈ events, e.stores v) →
    ∃ t memory', runEvents flash storer events s = some (true, t) ∧
      Storer.read flash storer heap memory t = some memory' ∧
      ∀ v ∈ storer.variableList, ∃ stored, lastStored v events = some stored ∧
        Base.LinkedCopies.read memory' v.address v.size = Base.LinkedCopies.read stored v.address v.size

structure Persists {σ : Type} (flash : Driver σ) (calls : List (List FlashVariable)) (s : σ) : Prop where
  size : (registered calls).totalSize = total (registered calls).variableList
  restores : total (registered calls).variableList ≤ flashStorerMaxSize →
    Restores flash (registered calls) s

/-- Only the last call registers bytes, and what can be kept is whole words of variables that do
not overlap. -/
structure Sound (calls : List (List FlashVariable)) : Prop where
  once : total calls.dropLast.flatten = 0
  small : total calls.flatten < 2 ^ 32
  whole : total calls.flatten ≤ flashStorerMaxSize → 4 ∣ total calls.flatten
  apart : total calls.flatten ≤ flashStorerMaxSize → ∀ v ∈ calls.flatten, ∀ w ∈ calls.flatten,
    v.address ≠ w.address → ∀ x, Covers v x → ¬ Covers w x

/-! ## Slots along a run -/

section Slots

variable {events : List Event} {v w : FlashVariable}

def after (events : List Event) (slot : Slot) : Slot :=
  events.foldl (fun slot e => slot.fill e.stores e.memory) slot

theorem after_eq (events : List Event) (slot : Slot) :
    after events slot = (lastStored slot.region events).elim slot fun m => .ofMemory m slot.region := by
  induction events generalizing slot with
  | nil => rfl
  | cons e events ih =>
    change after events (slot.fill e.stores e.memory) = _
    rw [ih, Slot.region_fill, lastStored]
    cases lastStored slot.region events with
    | some m => rfl
    | none =>
      rw [Slot.fill]
      split <;> rfl

theorem lastStored_isSome (h : ∃ e ∈ events, e.stores v) : ∃ m, lastStored v events = some m := by
  induction events with
  | nil =>
    obtain ⟨e, he, _⟩ := h
    cases he
  | cons e events ih =>
    rw [lastStored]
    cases hlater : lastStored v events with
    | some m => exact ⟨m, rfl⟩
    | none =>
      obtain ⟨e', hmem, hstores⟩ := h
      rcases List.mem_cons.mp hmem with rfl | hmem
      · exact ⟨e'.memory, by rw [if_pos hstores]; rfl⟩
      · obtain ⟨m, hm⟩ := ih ⟨e', hmem, hstores⟩
        rw [hlater] at hm
        cases hm

/-- A store goes by the address. -/
theorem lastStored_congr (h : v.address = w.address) : lastStored v events = lastStored w events := by
  have hstores (e : Event) : e.stores v = e.stores w := by
    rw [Event.stores, Event.stores, h]
  induction events with
  | nil => rfl
  | cons e events ih => rw [lastStored, lastStored, ih, hstores]

end Slots

section Spec

variable {σ : Type} {flash : Driver σ} {storer : FlashStorer} {slots : List Slot} {s : σ}

theorem run_spec (hflash : Copies flash) (hfits : Fits storer) (h : Holds flash storer s slots) (e : Event) :
    ∃ t, e.run flash storer s = some (true, t) ∧
      Holds flash storer t (slots.map (Slot.fill e.stores e.memory)) := by
  obtain ⟨call, m, heap⟩ := e
  cases call with
  | storeAll => exact storeAll_spec hflash hfits (heap 0) m s h.regions
  | store pointers => exact storeEach_spec hflash hfits h m pointers heap

theorem runEvents_spec (hflash : Copies flash) (hfits : Fits storer) (h : Holds flash storer s slots)
    (events : List Event) :
    ∃ t, runEvents flash storer events s = some (true, t) ∧
      Holds flash storer t (slots.map (after events)) := by
  induction events generalizing s slots with
  | nil => exact ⟨s, rfl, by rwa [show slots.map (after []) = slots from List.map_id slots]⟩
  | cons e events ih =>
    obtain ⟨t, hrun, ht⟩ := run_spec hflash hfits h e
    obtain ⟨u, hrest, hu⟩ := ih ht
    rw [List.map_map] at hu
    refine ⟨u, ?_, hu⟩
    simp only [runEvents, hrun, Option.bind_eq_bind, Option.bind_some, hrest]
    rfl

/-- A variable that was stored and that no other overlaps is handed out. -/
theorem handOut_variable {v : FlashVariable} {events : List Event} {stored : Memory} (m : Memory)
    (hmem : v ∈ slots.map Slot.region) (hstored : lastStored v events = some stored)
    (hapart : ∀ w ∈ slots.map Slot.region, v.address ≠ w.address → ∀ x, Covers v x → ¬ Covers w x) :
    Base.LinkedCopies.read (handOut (slots.map (after events)) m) v.address v.size =
      Base.LinkedCopies.read stored v.address v.size := by
  refine (read_congr fun i hi => ?_)
  have hcovers : Covers v (v.address + i) := ⟨Nat.le_add_right _ _, Nat.add_lt_add_left hi _⟩
  symm
  have hregion (slot : Slot) : (after events slot).region = slot.region := by
    rw [after_eq]
    cases lastStored slot.region events <;> rfl
  apply handOut_byte
  · intro filled hfilled hx
    obtain ⟨slot, hslot, rfl⟩ := List.mem_map.mp hfilled
    rw [hregion] at hx ⊢
    have hsame : v.address = slot.region.address := by
      by_contra hne
      exact hapart _ (List.mem_map_of_mem hslot) hne _ hcovers hx
    rw [after_eq, ← lastStored_congr hsame, hstored]
    obtain ⟨hfrom, hto⟩ := hx
    have hbyte := read_getElem? stored slot.region.address
      (n := slot.region.size) (i := v.address + i - slot.region.address) (by omega)
    rwa [Nat.add_sub_cancel' hfrom] at hbyte
  · right
    obtain ⟨slot, hslot, rfl⟩ := List.mem_map.mp hmem
    exact ⟨after events slot, List.mem_map_of_mem hslot, by rwa [hregion]⟩

theorem restores_of_apart (hflash : Copies flash) (hfits : Fits storer) (hwhole : 4 ∣ storer.totalSize)
    (hapart : ∀ v ∈ storer.variableList, ∀ w ∈ storer.variableList,
      v.address ≠ w.address → ∀ x, Covers v x → ¬ Covers w x) (s : σ) : Restores flash storer s := by
  intro events heap m hall
  obtain ⟨slots, h⟩ := exists_holds hflash hfits s
  obtain ⟨t, hrun, ht⟩ := runEvents_spec hflash hfits h events
  refine ⟨t, _, hrun, read_spec hflash hfits ht hwhole heap m, fun v hv => ?_⟩
  obtain ⟨stored, hstored⟩ := lastStored_isSome (hall v hv)
  refine ⟨stored, hstored, handOut_variable m (h.regions ▸ hv) hstored ?_⟩
  exact h.regions ▸ hapart v hv

/-! ## What goes wrong otherwise -/

theorem whole_of_restores (hfits : Fits storer) (h : Restores flash storer s) : 4 ∣ storer.totalSize := by
  by_contra hpart
  obtain ⟨t, m, _, hread, _⟩ := h [⟨.storeAll, fun _ => 0, fun _ _ => 0⟩] (fun _ => 0) (fun _ => 0)
    fun v _ => ⟨_, List.mem_singleton_self _, rfl⟩
  rw [read_overrun hfits hpart] at hread
  cases hread

/-- Of two variables that overlap, one is stored with another value in between. -/
theorem apart_of_restores (h : Restores flash storer s) {v w : FlashVariable}
    (hv : v ∈ storer.variableList) (hw : w ∈ storer.variableList) (hne : v.address ≠ w.address) {x : Nat}
    (hvx : Covers v x) : ¬ Covers w x := by
  intro hwx
  let first : Event := ⟨.storeAll, fun _ => 0, fun _ _ => 0⟩
  let second : Event := ⟨.store [w.address], fun _ => 1, fun _ _ => 0⟩
  obtain ⟨t, m, _, _, hrestored⟩ := h [first, second] (fun _ => 0) (fun _ => 0)
    fun v _ => ⟨first, List.mem_cons_self, rfl⟩
  have hbyte {u : FlashVariable} {stored : Memory} (hux : Covers u x)
      (hlast : lastStored u [first, second] = some stored) (hu : u ∈ storer.variableList) : m x = stored x := by
    obtain ⟨stored', hlast', hread⟩ := hrestored u hu
    obtain rfl := Option.some.inj (hlast'.symm.trans hlast)
    obtain ⟨hfrom, hto⟩ := hux
    have hget (m : Memory) : (Base.LinkedCopies.read m u.address u.size)[x - u.address]? = some (m x) := by
      rw [read_getElem? m u.address (by omega), Nat.add_sub_cancel' hfrom]
    exact Option.some.inj ((hget m).symm.trans (hread ▸ hget stored'))
  have hfirst : lastStored v [first, second] = some first.memory := by
    have hstores : second.stores v = false := decide_eq_false (by simpa using hne)
    rw [lastStored, lastStored, hstores]
    rfl
  have hsecond : lastStored w [first, second] = some second.memory := by
    have hstores : second.stores w = true := decide_eq_true (List.mem_singleton_self _)
    rw [lastStored, lastStored, hstores]
    rfl
  have hdiffer : first.memory x = second.memory x :=
    (hbyte hvx hfirst hv).symm.trans (hbyte hwx hsecond hw)
  exact absurd hdiffer (show (0#8 : Byte) ≠ 1#8 by decide)

/-- **Kept over a restart.** The size is that of the variables, and stored variables are restored
within the buffers, exactly if only the last call registers bytes and, within the bound, the
variables fill whole words and do not overlap. -/
theorem persists_iff (flash : Driver σ) (hflash : Copies flash) (calls : List (List FlashVariable)) (s : σ) :
    Persists flash calls s ↔ Sound calls := by
  have hlist := registered_variableList calls
  constructor
  · rintro ⟨hsize, hrestores⟩
    rw [hlist] at hsize hrestores
    obtain ⟨honce, hsmall⟩ := (registered_totalSize_iff calls).mp hsize
    refine ⟨honce, hsmall, fun hmax => ?_, fun hmax v hv w hw hne x => ?_⟩
    · have hfits : Fits (registered calls) := ⟨by rw [hlist, hsize], by rw [hsize]; exact hmax⟩
      exact hsize ▸ whole_of_restores hfits (hrestores hmax)
    · exact apart_of_restores (hrestores hmax) (hlist ▸ hv) (hlist ▸ hw) hne
  · rintro ⟨honce, hsmall, hwhole, hapart⟩
    have hsize := (registered_totalSize_iff calls).mpr ⟨honce, hsmall⟩
    refine ⟨by rw [hlist, hsize], fun hmax => ?_⟩
    rw [hlist] at hmax
    have hfits : Fits (registered calls) := ⟨by rw [hlist, hsize], by rw [hsize]; exact hmax⟩
    exact restores_of_apart hflash hfits (hsize ▸ hwhole hmax) (hlist ▸ hapart hmax) s

end Spec

/-! ## Over the flash itself -/

section Hal

variable {σ : Type} {hal : Hal σ} {s : σ}

/-- `Flash` on the bytes of its words. -/
def driver (hal : Hal σ) : Driver σ where
  read s address n := word32Layout.encodeAll ((Model.read hal s address (List.replicate n 0#32)).getD [])
  write s data address n :=
    let source := word32Layout.readAll n (memory data fun _ => 0)
    (Model.write hal source address (BitVec.ofNat 32 n) s).getD (false, s)

/-- A HAL whose calls succeed. -/
structure Working (hal : Hal σ) : Prop where
  erase : ∀ s first count, (hal.erase s first count).1 = true
  program : ∀ s address data, (hal.program s address data).1 = true

theorem programLoop_working (hworking : Working hal) {buffer : List Word} {left : Nat} {address : Word}
    {index : Nat} : (Model.programLoop hal buffer left address index s).1 = true := by
  induction left generalizing address index s with
  | zero => rfl
  | succ left ih =>
    have hprogram := hworking.program s address ((buffer.drop index).take Model.flashword)
    rw [Model.programLoop]
    split
    · exact ih
    · next hfails =>
      rw [hfails] at hprogram
      cases hprogram

/-- The word of the flash at which the variables start. -/
def startIndex : Nat := 212924

theorem start_eq : flashStorerStartAddress = Model.wordAddress startIndex := rfl

theorem write_start (hlaw : hal.Lawful) (hworking : Working hal) {source : List Word} {n : Nat}
    (hlength : source.length = n) (hn : n * 4 ≤ flashStorerMaxSize) :
    ∃ t, Model.write hal source flashStorerStartAddress (BitVec.ofNat 32 n) s = some (true, t) ∧
      ∀ j < n, hal.load t (Model.wordAddress (startIndex + j)) = source[j]? := by
  have hcount : Model.wordCount = 262144 := rfl
  unfold flashStorerMaxSize at hn
  have hnumber : (BitVec.ofNat 32 n).toNat = n := Nat.mod_eq_of_lt (by omega)
  have hend : startIndex + n ≤ Model.wordCount := by
    unfold startIndex
    omega
  obtain ⟨first, last, sector, count, l, hin, hfirst, hcounts, hllength, hwords, hwrite⟩ :=
    Writes.write_eq hlaw s (k := startIndex) (hlength.trans hnumber.symm) (by unfold startIndex; omega)
      (by rw [hnumber]; exact hend)
  rw [start_eq, hwrite]
  have herase := hworking.erase s first (last - first + 1#32)
  cases hresult : Model.erase hal s first last with
  | mk erased u =>
    obtain rfl : erased = true := (congrArg Prod.fst hresult).symm.trans herase
    refine ⟨_, congrArg some (Prod.ext (programLoop_working hworking) rfl), fun j hj => ?_⟩
    rw [Writes.program_sectors hlaw hin hllength hwords hfirst hcounts hresult
      (Prod.ext (programLoop_working hworking) rfl) _ (by omega), if_pos (by omega), Nat.add_sub_cancel_left]

/-- The flash copies the words that it is asked for where the HAL does. -/
theorem driver_copies (hlaw : hal.Lawful) (hworking : Working hal) : Copies (driver hal) := by
  have hread (s : σ) (n : Nat) (hn : n * 4 ≤ flashStorerMaxSize) :
      ∃ l, Model.read hal s flashStorerStartAddress (List.replicate n 0#32) = some l ∧ l.length = n ∧
        ∀ j < n, l[j]? = hal.load s (Model.wordAddress (startIndex + j)) := by
    have hcount : Model.wordCount = 262144 := rfl
    unfold flashStorerMaxSize at hn
    have h := Writes.read_spec hlaw s startIndex (List.replicate n 0#32) (by unfold startIndex; omega)
      (by rw [List.length_replicate]; unfold startIndex; omega)
    rwa [List.length_replicate] at h
  have hlength (data : List Byte) (n : Nat) : (word32Layout.readAll n (memory data fun _ => 0)).length = n :=
    word32Layout.length_readAll n _
  refine ⟨fun s n hn => ?_, fun s data n hn hdata => ?_, fun s data n hn hdata => ?_⟩
  · obtain ⟨l, hl, hlen, _⟩ := hread s n hn
    simp only [driver, hl, Option.getD_some, word32Layout.length_encodeAll, hlen]
    rfl
  · obtain ⟨t, ht, _⟩ := write_start (s := s) hlaw hworking (hlength data n) hn
    simp only [driver, ht, Option.getD_some]
  · obtain ⟨t, ht, hwords⟩ := write_start (s := s) hlaw hworking (hlength data n) hn
    obtain ⟨l, hl, hlen, hload⟩ := hread t n hn
    have hsource : l = word32Layout.readAll n (memory data fun _ => 0) := by
      refine List.ext_getElem? fun j => ?_
      rcases Nat.lt_or_ge j n with hj | hj
      · rw [hload j hj, hwords j hj]
      · rw [List.getElem?_eq_none (by omega), List.getElem?_eq_none (by rw [hlength]; exact hj)]
    simp only [driver, ht, Option.getD_some, hl, hsource]
    exact word32_encodeAll_readAll hdata _

end Hal

theorem workingFlash_working : Working Writes.workingFlash := ⟨fun _ _ _ => rfl, fun _ _ _ => rfl⟩

/-- Two variables that are registered in one call, the second of them twice. -/
theorem persists_pair : Persists (driver Writes.workingFlash)
    [[⟨0x20000000, 4⟩, ⟨0x20000008, 8⟩, ⟨0x20000008, 8⟩]] (fun _ => 7#32) := by
  refine (persists_iff (driver Writes.workingFlash)
    (driver_copies Writes.workingFlash_lawful workingFlash_working) _ _).mpr ?_
  refine ⟨rfl, by decide, fun _ => by decide, fun _ v hv w hw hne x => ?_⟩
  simp only [List.flatten_cons, List.flatten_nil, List.append_nil, List.mem_cons, List.not_mem_nil,
    or_false] at hv hw
  unfold Covers
  rcases hv with rfl | rfl | rfl <;> rcases hw with rfl | rfl | rfl <;> dsimp only at hne ⊢ <;> omega

/-- The second call forgets the size of the first. -/
theorem second_call_forgets : ¬ Persists (driver Writes.workingFlash)
    [[⟨0x20000000, 4⟩], [⟨0x20000008, 8⟩]] (fun _ => 7#32) := by
  intro h
  exact absurd h.size (by decide)

end StLib.Flash.Persistence
