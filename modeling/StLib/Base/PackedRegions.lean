import StLib.Base.BoundedCopies
import StLib.Base.LinkedCopies

/-! # Regions packed into one buffer

Regions of memory whose bytes lie one behind the other in a buffer. A slot is a region with the
bytes that the buffer holds for it; slots are filled from a memory and handed out to one. -/
namespace StLib.Base.PackedRegions

open StLib.Base.Bytes
open StLib.Base.LinkedCopies

def Covers (r : Region) (x : Nat) : Prop := r.address ≤ x ∧ x < r.address + r.size

instance (r : Region) (x : Nat) : Decidable (Covers r x) := inferInstanceAs (Decidable (_ ∧ _))

theorem length_read (m : Memory) (a n : Nat) : (read m a n).length = n := by
  rw [LinkedCopies.read, Memory.bytes, List.length_map, List.length_range]

theorem read_getElem? (m : Memory) (a : Nat) {n i : Nat} (h : i < n) : (read m a n)[i]? = some (m (a + i)) := by
  rw [LinkedCopies.read, Memory.bytes, List.getElem?_map, List.getElem?_range h]
  rfl

theorem total_append (rs rs' : List Region) : total (rs ++ rs') = total rs + total rs' := by
  rw [total, List.map_append, List.sum_append, total, total]

/-! ## Slots -/

structure Slot where
  region : Region
  block : List Byte
  fits : block.length = region.size

/-- What the buffer holds for the slots. -/
def content (slots : List Slot) : List Byte := slots.flatMap Slot.block

def Slot.ofMemory (m : Memory) (r : Region) : Slot where
  region := r
  block := read m r.address r.size
  fits := length_read m r.address r.size

/-- The slot filled anew if its region is one of the chosen. -/
def Slot.fill (chosen : Region → Bool) (m : Memory) (slot : Slot) : Slot :=
  if chosen slot.region then ofMemory m slot.region else slot

theorem content_cons (slot : Slot) (slots : List Slot) :
    content (slot :: slots) = slot.block ++ content slots := List.flatMap_cons

theorem length_content (slots : List Slot) : (content slots).length = total (slots.map Slot.region) := by
  induction slots with
  | nil => rfl
  | cons slot slots ih => rw [content_cons, List.length_append, slot.fits, ih, List.map_cons, total_cons]

/-- Every buffer with room for regions is made of slots. -/
theorem exists_slots (rs : List Region) (data : List Byte) (h : total rs ≤ data.length) :
    ∃ slots rest, slots.map Slot.region = rs ∧ data = content slots ++ rest := by
  induction rs generalizing data with
  | nil => exact ⟨[], data, rfl, rfl⟩
  | cons r rs ih =>
    rw [total_cons] at h
    obtain ⟨slots, rest, hregions, hdata⟩ := ih (data.drop r.size) (by rw [List.length_drop]; omega)
    have hblock : (data.take r.size).length = r.size := by
      rw [List.length_take]
      omega
    refine ⟨⟨r, data.take r.size, hblock⟩ :: slots, rest, ?_, ?_⟩
    · rw [List.map_cons, hregions]
    · rw [content_cons, List.append_assoc, ← hdata, List.take_append_drop]

section Fill

variable {chosen chosen' : Region → Bool} {m : Memory}

@[simp] theorem Slot.region_fill (slot : Slot) : (slot.fill chosen m).region = slot.region := by
  rw [Slot.fill]
  split <;> rfl

theorem Slot.fill_fill (slot : Slot) :
    (slot.fill chosen m).fill chosen' m = slot.fill (fun r => chosen r || chosen' r) m := by
  rw [Slot.fill, Slot.region_fill, Slot.fill, Slot.fill]
  cases chosen slot.region <;> cases chosen' slot.region <;> rfl

variable (chosen m) in
theorem regions_fill (slots : List Slot) :
    (slots.map (Slot.fill chosen m)).map Slot.region = slots.map Slot.region := by
  rw [List.map_map]
  exact List.map_congr_left fun slot _ => slot.region_fill

/-- Where all is filled anew, nothing is left of what was there. -/
theorem fill_all {slots slots' : List Slot} (h : slots.map Slot.region = slots'.map Slot.region) :
    slots.map (Slot.fill (fun _ => true) m) = slots'.map (Slot.fill (fun _ => true) m) := by
  have hslots (slots : List Slot) : slots.map (Slot.fill (fun _ => true) m) =
      (slots.map Slot.region).map (Slot.ofMemory m) := by
    rw [List.map_map]
    rfl
  rw [hslots, hslots, h]

end Fill

/-! ## Handing out -/

/-- Bytes that are put into memory. -/
def put (m : Memory) (a : Nat) (bytes : List Byte) : Memory :=
  fun x => if a ≤ x then (bytes[x - a]?).getD (m x) else m x

def handOut : List Slot → Memory → Memory
  | [], m => m
  | slot :: slots, m => handOut slots (put m slot.region.address slot.block)

theorem put_outside (slot : Slot) (m : Memory) {x : Nat} (h : ¬ Covers slot.region x) :
    put m slot.region.address slot.block x = m x := by
  rw [put]
  split
  · next hle =>
    have hend : slot.block.length ≤ x - slot.region.address := by
      rw [slot.fits]
      unfold Covers at h
      omega
    rw [List.getElem?_eq_none hend, Option.getD_none]
  · rfl

/-- A byte that all slots of its regions agree on. -/
theorem handOut_byte {slots : List Slot} {m : Memory} {x : Nat} {b : Byte}
    (hslots : ∀ slot ∈ slots, Covers slot.region x → slot.block[x - slot.region.address]? = some b)
    (h : m x = b ∨ ∃ slot ∈ slots, Covers slot.region x) : handOut slots m x = b := by
  induction slots generalizing m with
  | nil => exact h.resolve_right fun ⟨slot, hmem, _⟩ => List.not_mem_nil hmem
  | cons slot slots ih =>
    refine ih (fun other hother => hslots other (List.mem_cons_of_mem slot hother)) ?_
    by_cases hcovers : Covers slot.region x
    · have hbyte := hslots slot List.mem_cons_self hcovers
      left
      rw [put, if_pos hcovers.1, hbyte, Option.getD_some]
    · rw [put_outside slot m hcovers]
      refine h.imp_right fun ⟨other, hother, hx⟩ => ⟨other, ?_, hx⟩
      exact (List.mem_cons.mp hother).resolve_left fun he => hcovers (he ▸ hx)

end StLib.Base.PackedRegions
