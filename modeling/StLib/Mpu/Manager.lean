import Mathlib

/-! # The pool without cache

`MPUManager`: blocks of a pool that is never given back. A block is its offset in the pool,
which `no_cached_ram_start` is added to. -/
namespace StLib.Mpu.Manager

/-- `NO_CACHED_RAM_MAXIMUM_SPACE`. -/
def maximumSpace : BitVec 32 := 2048#32

/-- A call of `allocate_non_cached_memory`: `no_cached_ram_occupied_bytes` before and after it,
and the block that it returns. -/
structure Call where
  before : BitVec 32
  size : BitVec 32
  after : BitVec 32
  block : Option (BitVec 32)
deriving DecidableEq

def allocateNonCachedMemory (occupied size : BitVec 32) : Call :=
  let buffer := occupied
  let after := occupied + size
  if maximumSpace < after then { before := occupied, size, after, block := none }
  else { before := occupied, size, after, block := some buffer }

/-- The calls for sizes in order. -/
def run (occupied : BitVec 32) : List (BitVec 32) → List Call
  | [] => []
  | size :: rest =>
    let c := allocateNonCachedMemory occupied size
    c :: run c.after rest

/-- The bytes of the blocks that were returned. -/
def granted (calls : List Call) : Nat :=
  (calls.map fun c => if c.block.isSome then c.size.toNat else 0).sum

/-- What an allocator of the pool owes its callers. A request fits if the blocks before it
leave room for it. -/
structure Serves (calls : List Call) : Prop where
  inside : ∀ c ∈ calls, ∀ offset, c.block = some offset → offset.toNat + c.size.toNat ≤ maximumSpace.toNat
  disjoint : calls.Pairwise fun c d => ∀ a b, c.block = some a → d.block = some b →
    a.toNat + c.size.toNat ≤ b.toNat ∨ b.toNat + d.size.toNat ≤ a.toNat
  atomic : ∀ earlier c later, calls = earlier ++ c :: later →
    maximumSpace.toNat < granted earlier + c.size.toNat → c.after = c.before
  available : ∀ earlier c later, calls = earlier ++ c :: later →
    granted earlier + c.size.toNat ≤ maximumSpace.toNat → c.block.isSome

/-! ## Requests that fit -/

section Calls

variable {occupied size : BitVec 32} {sizes : List (BitVec 32)}

def total (sizes : List (BitVec 32)) : Nat := (sizes.map BitVec.toNat).sum

theorem total_cons : total (size :: sizes) = size.toNat + total sizes := List.sum_cons

theorem granted_append (calls later : List Call) :
    granted (calls ++ later) = granted calls + granted later := by
  rw [granted, List.map_append, List.sum_append]
  rfl

theorem granted_cons (c : Call) (calls : List Call) :
    granted (c :: calls) = (if c.block.isSome then c.size.toNat else 0) + granted calls := List.sum_cons

/-- A request that fits gets the block behind the others. -/
theorem allocate_fits (h : occupied.toNat + size.toNat ≤ maximumSpace.toNat) :
    allocateNonCachedMemory occupied size =
      { before := occupied, size, after := occupied + size, block := some occupied } ∧
    (occupied + size).toNat = occupied.toNat + size.toNat := by
  have hspace : maximumSpace.toNat = 2048 := rfl
  have hsum : (occupied + size).toNat = occupied.toNat + size.toNat := by
    rw [BitVec.toNat_add]
    omega
  refine ⟨if_neg ?_, hsum⟩
  rw [BitVec.lt_def, hsum]
  omega

theorem run_cons (h : occupied.toNat + size.toNat ≤ maximumSpace.toNat) :
    run occupied (size :: sizes) =
      { before := occupied, size, after := occupied + size, block := some occupied } ::
        run (occupied + size) sizes := by rw [run, (allocate_fits h).1]

/-- While the requests fit together, each block stands behind those before it. -/
theorem run_blocks (h : occupied.toNat + total sizes ≤ maximumSpace.toNat) :
    ∀ c ∈ run occupied sizes, ∃ offset, c.block = some offset ∧ occupied.toNat ≤ offset.toNat ∧
      offset.toNat + c.size.toNat ≤ occupied.toNat + total sizes := by
  induction sizes generalizing occupied with
  | nil => exact fun c hc => absurd hc List.not_mem_nil
  | cons size rest ih =>
    rw [total_cons] at h ⊢
    have hfits : occupied.toNat + size.toNat ≤ maximumSpace.toNat := by omega
    have hafter := (allocate_fits hfits).2
    rw [run_cons hfits]
    refine List.forall_mem_cons.mpr ⟨⟨occupied, rfl, Nat.le_refl _, by dsimp only; omega⟩, fun c hc => ?_⟩
    obtain ⟨offset, hblock, hfrom, hto⟩ := ih (by omega) c hc
    exact ⟨offset, hblock, by omega, by omega⟩

theorem run_granted (h : occupied.toNat + total sizes ≤ maximumSpace.toNat) :
    granted (run occupied sizes) = total sizes := by
  induction sizes generalizing occupied with
  | nil => rfl
  | cons size rest ih =>
    rw [total_cons] at h ⊢
    have hfits : occupied.toNat + size.toNat ≤ maximumSpace.toNat := by omega
    have hafter := (allocate_fits hfits).2
    rw [run_cons hfits, granted_cons, ih (by omega)]
    rfl

theorem run_disjoint (h : occupied.toNat + total sizes ≤ maximumSpace.toNat) :
    (run occupied sizes).Pairwise fun c d => ∀ a b, c.block = some a → d.block = some b →
      a.toNat + c.size.toNat ≤ b.toNat ∨ b.toNat + d.size.toNat ≤ a.toNat := by
  induction sizes generalizing occupied with
  | nil => exact .nil
  | cons size rest ih =>
    rw [total_cons] at h
    have hfits : occupied.toNat + size.toNat ≤ maximumSpace.toNat := by omega
    have hafter := (allocate_fits hfits).2
    rw [run_cons hfits]
    refine .cons (fun d hd a b ha hb => ?_) (ih (by omega))
    obtain ⟨offset, hblock, hfrom, -⟩ := run_blocks (by omega) d hd
    obtain rfl := Option.some.inj (hblock.symm.trans hb)
    obtain rfl := Option.some.inj ha
    left
    dsimp only
    omega

theorem run_serves (h : total sizes ≤ maximumSpace.toNat) : Serves (run 0#32 sizes) := by
  have hfits : (0#32 : BitVec 32).toNat + total sizes ≤ maximumSpace.toNat := by
    change 0 + _ ≤ _
    omega
  refine ⟨fun c hc offset hoffset => ?_, run_disjoint hfits, fun earlier c later hsplit hfull => ?_,
    fun earlier c later hsplit _ => ?_⟩
  · obtain ⟨b, hb, -, hto⟩ := run_blocks hfits c hc
    obtain rfl := Option.some.inj (hb.symm.trans hoffset)
    exact hto.trans hfits
  · have hmem : c ∈ run 0#32 sizes := hsplit ▸ List.mem_append_right _ List.mem_cons_self
    obtain ⟨b, hb, -⟩ := run_blocks hfits c hmem
    have hgranted := run_granted hfits
    rw [hsplit, granted_append, granted_cons, hb] at hgranted
    change granted earlier + (c.size.toNat + granted later) = _ at hgranted
    omega
  · have hmem : c ∈ run 0#32 sizes := hsplit ▸ List.mem_append_right _ List.mem_cons_self
    obtain ⟨b, hb, -⟩ := run_blocks hfits c hmem
    rw [hb]
    rfl

/-! ## The first request that does not fit -/

/-- It moves the end of the blocks all the same. -/
theorem run_overflows (hstart : occupied.toNat ≤ maximumSpace.toNat)
    (h : maximumSpace.toNat < occupied.toNat + total sizes) :
    ∃ earlier c later, run occupied sizes = earlier ++ c :: later ∧
      maximumSpace.toNat < occupied.toNat + granted earlier + c.size.toNat ∧ c.after ≠ c.before := by
  induction sizes generalizing occupied with
  | nil =>
    change _ < _ + 0 at h
    omega
  | cons size rest ih =>
    rw [total_cons] at h
    by_cases hfits : occupied.toNat + size.toNat ≤ maximumSpace.toNat
    · have hafter := (allocate_fits hfits).2
      have hrest : maximumSpace.toNat < (occupied + size).toNat + total rest := by omega
      obtain ⟨earlier, c, later, hrun, hfull, hmoved⟩ := ih (by omega) hrest
      refine ⟨{ before := occupied, size, after := occupied + size, block := some occupied } :: earlier,
        c, later, ?_, ?_, hmoved⟩
      · rw [run_cons hfits, hrun]
        rfl
      · change _ < _ + (size.toNat + granted earlier) + _
        omega
    · have hcall : allocateNonCachedMemory occupied size =
          { before := occupied, size, after := occupied + size,
            block := (allocateNonCachedMemory occupied size).block } := by
        rw [allocateNonCachedMemory]
        split <;> rfl
      refine ⟨[], allocateNonCachedMemory occupied size, _, rfl, ?_, ?_⟩
      · rw [hcall]
        change _ < _ + 0 + size.toNat
        omega
      · rw [hcall]
        intro hsame
        have hzero : size = 0#32 := by simpa using hsame
        rw [hzero] at hfits
        exact hfits hstart

end Calls

/-- **The pool.** The pool serves a sequence of requests if and only if they fit all
together: the first that does not fit moves the end of the blocks before it is refused. -/
theorem serves_iff (sizes : List (BitVec 32)) :
    Serves (run 0#32 sizes) ↔ total sizes ≤ maximumSpace.toNat := by
  refine ⟨fun h => ?_, run_serves⟩
  by_contra hfull
  have htotal : maximumSpace.toNat < (0#32 : BitVec 32).toNat + total sizes := by
    change _ < 0 + _
    omega
  obtain ⟨earlier, c, later, hrun, hover, hmoved⟩ := run_overflows (Nat.zero_le _) htotal
  have hgranted : maximumSpace.toNat < granted earlier + c.size.toNat := by
    change _ < 0 + _ + _ at hover
    omega
  exact hmoved (h.atomic earlier c later hrun hgranted)

/-- The second request would fit. -/
theorem refused_for_good : ¬ Serves (run 0#32 [4096#32, 16#32]) := by
  intro h
  have hfits := h.available [⟨0#32, 4096#32, 4096#32, none⟩] ⟨4096#32, 16#32, 4112#32, none⟩ [] (by decide)
    (by decide)
  exact Bool.false_ne_true hfits

end StLib.Mpu.Manager
