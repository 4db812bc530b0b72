import Mathlib.Data.List.Induction
import StLib.Flash.Storer

/-! # What the flash holds of the variables

It is made of a slot for each registered variable. A store fills the slots of what it stores, and
`read` hands all slots out. -/
namespace StLib.Flash.StorerSlots

open StLib.Base.Bytes
open StLib.Base.BoundedCopies (memcpy memcpy_append memcpy_whole)
open StLib.Base.LinkedCopies hiding read
open StLib.Base.PackedRegions
open Storer

/-! ## Registration -/

theorem totalSizeof_eq (vars : List FlashVariable) : totalSizeof vars = total vars % 2 ^ 32 := by
  induction vars with
  | nil => rfl
  | cons v vars ih => rw [totalSizeof, ih, total_cons, Nat.add_mod_mod]

theorem registered_concat (calls : List (List FlashVariable)) (vars : List FlashVariable) :
    registered (calls ++ [vars]) = ((registered calls).addVariables vars).2 := List.foldl_concat ..

theorem registered_variableList (calls : List (List FlashVariable)) :
    (registered calls).variableList = calls.flatten := by
  induction calls using List.reverseRecOn with
  | nil => rfl
  | append_singleton calls vars ih =>
    rw [registered_concat, FlashStorer.addVariables, ih, List.flatten_append, List.flatten_singleton]

/-- The size is that of the last call. -/
theorem registered_totalSize_iff (calls : List (List FlashVariable)) :
    (registered calls).totalSize = total calls.flatten ↔
      total calls.dropLast.flatten = 0 ∧ total calls.flatten < 2 ^ 32 := by
  rcases List.eq_nil_or_concat' calls with rfl | ⟨calls, vars, rfl⟩
  · exact iff_of_true rfl ⟨rfl, Nat.two_pow_pos 32⟩
  · have hsize : ((registered calls).addVariables vars).2.totalSize = total vars % 2 ^ 32 :=
      totalSizeof_eq vars
    rw [registered_concat, hsize, List.dropLast_concat, List.flatten_append, List.flatten_singleton,
      total_append]
    omega

/-! ## The loops -/

theorem copyIn_content (chosen : FlashVariable → Bool) (m : Memory) (slots : List Slot)
    (before rest : List Byte) (hsmall : before.length + total (slots.map Slot.region) < 2 ^ 32) :
    copyIn chosen m (slots.map Slot.region) before.length (before ++ content slots ++ rest) =
      some (before ++ content (slots.map (Slot.fill chosen m)) ++ rest) := by
  induction slots generalizing before with
  | nil => rfl
  | cons slot slots ih =>
    rw [List.map_cons, total_cons] at hsmall
    have hbuffer (slot : Slot) (slots : List Slot) : before ++ content (slot :: slots) ++ rest =
        before ++ slot.block ++ (content slots ++ rest) := by
      rw [content_cons, ← List.append_assoc, List.append_assoc]
    have hfirst : (if chosen slot.region then
          memcpy (before ++ slot.block ++ (content slots ++ rest)) before.length
            (Base.LinkedCopies.read m slot.region.address slot.region.size) 0 slot.region.size
        else some (before ++ slot.block ++ (content slots ++ rest))) =
        some (before ++ (slot.fill chosen m).block ++ (content slots ++ rest)) := by
      rw [Slot.fill]
      split
      · have hcopy := memcpy_append (a := before) (x := []) (y := []) (c := content slots ++ rest) rfl rfl
          slot.fits (length_read m slot.region.address slot.region.size)
        rwa [List.nil_append, List.append_nil] at hcopy
      · rfl
    have hoffset : (before.length + slot.region.size) % 2 ^ 32 =
        (before ++ (slot.fill chosen m).block).length := by
      rw [List.length_append, (slot.fill chosen m).fits, Slot.region_fill]
      omega
    have hrest := ih (before ++ (slot.fill chosen m).block) (by rw [← hoffset]; omega)
    rw [List.map_cons, List.map_cons, hbuffer, hbuffer, copyIn, hfirst, hoffset, ← List.append_assoc,
      ← List.append_assoc]
    exact hrest

theorem copyOut_content (slots : List Slot) (before rest : List Byte) (m : Memory)
    (hsmall : before.length + total (slots.map Slot.region) < 2 ^ 32) :
    copyOut (before ++ content slots ++ rest) (slots.map Slot.region) before.length m =
      some (handOut slots m) := by
  induction slots generalizing before m with
  | nil => rfl
  | cons slot slots ih =>
    rw [List.map_cons, total_cons] at hsmall
    have hbuffer : before ++ content (slot :: slots) ++ rest =
        before ++ (slot.block ++ (content slots ++ rest)) := by
      rw [content_cons, List.append_assoc, List.append_assoc]
    have hfits := slot.fits
    have hroom : before.length + slot.region.size ≤
        (before ++ (slot.block ++ (content slots ++ rest))).length := by
      simp only [List.length_append]
      omega
    have hblock : ((before ++ (slot.block ++ (content slots ++ rest))).drop before.length).take
        slot.region.size = slot.block := by
      rw [List.drop_left' rfl, List.take_left' hfits]
    have hoffset : (before.length + slot.region.size) % 2 ^ 32 = (before ++ slot.block).length := by
      rw [List.length_append, hfits]
      omega
    have hrest := ih (before ++ slot.block) (put m slot.region.address slot.block)
      (by rw [← hoffset]; omega)
    rw [List.map_cons, hbuffer, copyOut, if_pos hroom, hblock, hoffset, ← List.append_assoc,
      ← List.append_assoc]
    exact hrest

/-! ## Stores and reads -/

/-- The flash copies the words that it is asked for, where the variables are kept. -/
structure Copies {σ : Type} (flash : Driver σ) : Prop where
  length_read : ∀ s n, n * 4 ≤ flashStorerMaxSize →
    (flash.read s flashStorerStartAddress n).length = n * 4
  write_succeeds : ∀ s data n, n * 4 ≤ flashStorerMaxSize → data.length = n * 4 →
    (flash.write s data flashStorerStartAddress n).1 = true
  read_write : ∀ s data n, n * 4 ≤ flashStorerMaxSize → data.length = n * 4 →
    flash.read (flash.write s data flashStorerStartAddress n).2 flashStorerStartAddress n = data

/-- The size is that of the variables and within the bound. -/
structure Fits (storer : FlashStorer) : Prop where
  total_eq : total storer.variableList = storer.totalSize
  le_max : storer.totalSize ≤ flashStorerMaxSize

theorem Fits.words {storer : FlashStorer} (h : Fits storer) :
    storer.totalSize ≤ storer.numberOfWords * 4 ∧ storer.numberOfWords * 4 ≤ flashStorerMaxSize ∧
      (4 ∣ storer.totalSize → storer.numberOfWords * 4 = storer.totalSize) := by
  have hle := h.le_max
  unfold FlashStorer.numberOfWords
  unfold flash32BitsWorld flashStorerMaxSize at *
  omega

section Operations

variable {σ : Type} {flash : Driver σ} {storer : FlashStorer} {slots : List Slot} {s : σ}

/-- The flash holds the slots of the variables. -/
structure Holds (flash : Driver σ) (storer : FlashStorer) (s : σ) (slots : List Slot) : Prop where
  regions : slots.map Slot.region = storer.variableList
  content : ∃ rest, flash.read s flashStorerStartAddress storer.numberOfWords =
    Base.PackedRegions.content slots ++ rest

theorem exists_holds (hflash : Copies flash) (hfits : Fits storer) (s : σ) :
    ∃ slots, Holds flash storer s slots := by
  obtain ⟨hle, hmax, _⟩ := hfits.words
  have hroom : total storer.variableList ≤
      (flash.read s flashStorerStartAddress storer.numberOfWords).length := by
    rw [hflash.length_read s _ hmax, hfits.total_eq]
    exact hle
  obtain ⟨slots, rest, hregions, hcontent⟩ := exists_slots storer.variableList _ hroom
  exact ⟨slots, hregions, rest, hcontent⟩

theorem readWords_eq (hflash : Copies flash) {n : Nat} {data : List Byte}
    (hn : n * 4 ≤ flashStorerMaxSize) (hdata : data.length = n * 4) :
    readWords flash s data n = some (flash.read s flashStorerStartAddress n) :=
  memcpy_whole hdata (hflash.length_read s n hn)

/-- Slots that are written from a buffer. -/
theorem writeWords_spec (hflash : Copies flash) (hfits : Fits storer) (s : σ) {rest : List Byte}
    (hregions : slots.map Slot.region = storer.variableList)
    (hlength : (content slots ++ rest).length = storer.numberOfWords * 4) :
    ∃ t, writeWords flash s (content slots ++ rest) storer.numberOfWords = some (true, t) ∧
      Holds flash storer t slots := by
  obtain ⟨_, hmax, _⟩ := hfits.words
  have hsucceeds := hflash.write_succeeds s _ _ hmax hlength
  have hread := hflash.read_write s _ _ hmax hlength
  refine ⟨_, ?_, hregions, rest, hread⟩
  rw [writeWords, if_pos (Nat.le_of_eq hlength.symm), List.take_of_length_le (Nat.le_of_eq hlength)]
  exact congrArg some (Prod.ext hsucceeds rfl)

/-- What the stores have in common: the slots in the buffer are filled and written. -/
theorem fill_spec (hflash : Copies flash) (hfits : Fits storer) (s : σ) {rest : List Byte}
    (hregions : slots.map Slot.region = storer.variableList)
    (hlength : (content slots ++ rest).length = storer.numberOfWords * 4)
    (chosen : FlashVariable → Bool) (m : Memory) :
    ∃ t, (do
        let data ← copyIn chosen m storer.variableList 0 (content slots ++ rest)
        writeWords flash s data storer.numberOfWords) = some (true, t) ∧
      Holds flash storer t (slots.map (Slot.fill chosen m)) := by
  have hsmall : total (slots.map Slot.region) < 2 ^ 32 := by
    have hle := hfits.le_max
    rw [hregions, hfits.total_eq]
    unfold flashStorerMaxSize at hle
    omega
  have hfilled := (regions_fill chosen m slots).trans hregions
  have hcopy := copyIn_content chosen m slots [] rest
    (by rw [List.length_nil, Nat.zero_add]; exact hsmall)
  rw [hregions] at hcopy
  have hsame : (content (slots.map (Slot.fill chosen m)) ++ rest).length = storer.numberOfWords * 4 := by
    rw [List.length_append, length_content, regions_fill, ← length_content, ← List.length_append, hlength]
  obtain ⟨t, hwrite, hholds⟩ := writeWords_spec hflash hfits s hfilled hsame
  refine ⟨t, ?_, hholds⟩
  rw [List.nil_append, List.nil_append, List.length_nil] at hcopy
  rw [hcopy]
  exact hwrite

theorem length_malloc (heap : Memory) (n : Nat) : (malloc heap n).length = n := by
  rw [malloc, Memory.bytes, List.length_map, List.length_range]

theorem storeAll_spec (hflash : Copies flash) (hfits : Fits storer) (heap m : Memory) (s : σ)
    (hregions : slots.map Slot.region = storer.variableList) :
    ∃ t, storeAll flash storer heap m s = some (true, t) ∧
      Holds flash storer t (slots.map (Slot.fill (fun _ => true) m)) := by
  obtain ⟨hle, _, _⟩ := hfits.words
  have hlength := length_malloc heap (storer.numberOfWords * 4)
  obtain ⟨fresh, rest, hfresh, hbuffer⟩ := exists_slots storer.variableList
    (malloc heap (storer.numberOfWords * 4)) (by rw [hlength, hfits.total_eq]; exact hle)
  rw [hbuffer] at hlength
  rw [fill_all (hregions.trans hfresh.symm), storeAll, flash32BitsWorld, hbuffer]
  exact fill_spec hflash hfits s hfresh hlength _ m

theorem store_spec (hflash : Copies flash) (hfits : Fits storer) (h : Holds flash storer s slots)
    (pointer : Nat) (heap m : Memory) :
    ∃ t, store flash storer pointer heap m s = some (true, t) ∧
      Holds flash storer t (slots.map (Slot.fill (fun v => v.address = pointer) m)) := by
  obtain ⟨_, hmax, _⟩ := hfits.words
  obtain ⟨hregions, rest, hcontent⟩ := h
  have hlength := hflash.length_read s _ hmax
  rw [store, flash32BitsWorld, readWords_eq hflash hmax (length_malloc heap _), hcontent]
  rw [hcontent] at hlength
  exact fill_spec hflash hfits s hregions hlength _ m

theorem storeEach_spec (hflash : Copies flash) (hfits : Fits storer) (h : Holds flash storer s slots)
    (m : Memory) (pointers : List Nat) (heap : Nat → Memory) :
    ∃ t, storeEach flash storer m pointers heap s = some (true, t) ∧
      Holds flash storer t (slots.map (Slot.fill (fun v => v.address ∈ pointers) m)) := by
  induction pointers generalizing s slots heap with
  | nil =>
    have hnone : slots.map (Slot.fill (fun v => v.address ∈ ([] : List Nat)) m) = slots := by
      refine (List.map_congr_left fun slot _ => ?_).trans (List.map_id slots)
      rw [Slot.fill, if_neg (by simp)]
      rfl
    exact ⟨s, rfl, by rwa [hnone]⟩
  | cons pointer pointers ih =>
    obtain ⟨t, hstore, ht⟩ := store_spec hflash hfits h pointer (heap 0) m
    obtain ⟨u, hrest, hu⟩ := ih ht fun k => heap (k + 1)
    have hboth : (slots.map (Slot.fill (fun v => v.address = pointer) m)).map
        (Slot.fill (fun v => v.address ∈ pointers) m) =
          slots.map (Slot.fill (fun v => v.address ∈ pointer :: pointers) m) := by
      rw [List.map_map]
      refine List.map_congr_left fun slot _ => (slot.fill_fill).trans ?_
      simp only [List.mem_cons, Bool.decide_or]
    rw [hboth] at hu
    refine ⟨u, ?_, hu⟩
    simp only [storeEach, hstore, Option.bind_eq_bind, Option.bind_some, hrest]
    rfl

/-- All slots are handed out where the buffer has room for whole words. -/
theorem read_spec (hflash : Copies flash) (hfits : Fits storer) (h : Holds flash storer s slots)
    (hwhole : 4 ∣ storer.totalSize) (heap m : Memory) :
    Storer.read flash storer heap m s = some (handOut slots m) := by
  obtain ⟨_, hmax, hwords⟩ := hfits.words
  obtain ⟨hregions, rest, hcontent⟩ := h
  have hsmall : total (slots.map Slot.region) < 2 ^ 32 := by
    have hle := hfits.le_max
    rw [hregions, hfits.total_eq]
    unfold flashStorerMaxSize at hle
    omega
  have hcopy := copyOut_content slots [] rest m
    (by rw [List.length_nil, Nat.zero_add]; exact hsmall)
  rw [hregions, List.nil_append] at hcopy
  have hlength : (malloc heap storer.totalSize).length = storer.numberOfWords * 4 := by
    rw [length_malloc, hwords hwhole]
  rw [Storer.read, readWords_eq hflash hmax hlength, hcontent]
  exact hcopy

/-- Without whole words the flash is read beyond the buffer. -/
theorem read_overrun (hfits : Fits storer) (hpart : ¬ 4 ∣ storer.totalSize) (heap m : Memory) (s : σ) :
    Storer.read flash storer heap m s = none := by
  obtain ⟨hle, _, _⟩ := hfits.words
  have hoverrun : readWords flash s (malloc heap storer.totalSize) storer.numberOfWords = none := by
    refine if_neg fun hbounds => ?_
    rw [length_malloc] at hbounds
    omega
  rw [Storer.read, hoverrun]
  rfl

end Operations

end StLib.Flash.StorerSlots
