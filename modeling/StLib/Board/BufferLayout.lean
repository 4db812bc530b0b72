import StLib.Base.AlignedLayout
import StLib.Board.Domains

/-! # The layout of the buffers

`MPUDomain::build` lays the buffers out in six arenas, those of the greatest alignment
first, and `calculate_total_sizes` says how large the arenas are. Both count in 32 bits. -/
namespace StLib.Board.BufferLayout

open StLib.Base.AlignedLayout StLib.Board.Domains
open StLib.Board.Domains.Mpu (Entry Config MemoryDomain MemoryType Offsets supportedAlignments
  assignedOffsets)

abbrev Arena := MemoryDomain × MemoryType

/-! ## The arenas -/

/-- `std::max`. -/
def stdMax (a b : BitVec 32) : BitVec 32 := if a < b then b else a

/-- The body of the loop of `calculate_total_sizes`. -/
def extend (sizes : Arena → BitVec 32) (cfg : Config) : Arena → BitVec 32 :=
  Function.update sizes (cfg.domain, cfg.type)
    (stdMax (sizes (cfg.domain, cfg.type)) (cfg.offset + BitVec.ofNat 32 cfg.size))

def calculateTotalSizes (configs : List Config) : Arena → BitVec 32 := fun arena =>
  Mpu.alignUp (configs.foldl extend (fun _ => 0) arena) 32

structure Instance where
  ptr : Nat
  size : Nat

/-- What `Init::init` makes of a configuration, `bases` being the addresses of the arrays. -/
def init (bases : Arena → Nat) (cfg : Config) : Instance where
  ptr := bases (cfg.domain, cfg.type) + cfg.offset.toNat
  size := cfg.size

/-- The configuration of the entry at an index. -/
def config (entries : List Entry) (i : Nat) (e : Entry) : Config where
  offset := (assignedOffsets entries).assigned i
  size := e.sizeInBytes
  domain := e.memoryDomain
  type := e.memoryType

def configs (entries : List Entry) : List Config := entries.mapIdx (config entries)

theorem build_eq (entries : List Entry) : Mpu.build entries = .ok (inPlace (configs entries)) := rfl

/-- Two buffers of one arena are disjoint, each is aligned and lies in its arena, whose size
is a multiple of 32. -/
structure LaidOut (bases : Arena → Nat) (entries : List Entry) (cfgs : List Config) : Prop where
  disjoint : ∀ (i j : Nat) (c d : Config), i ≠ j → cfgs[i]? = some c → cfgs[j]? = some d →
    (c.domain, c.type) = (d.domain, d.type) →
      (init bases c).ptr + c.size ≤ (init bases d).ptr ∨
        (init bases d).ptr + d.size ≤ (init bases c).ptr
  aligned : ∀ (i : Nat) (e : Entry) (c : Config), entries[i]? = some e → cfgs[i]? = some c →
    e.alignment ∣ c.offset.toNat
  inside : ∀ c ∈ cfgs, (init bases c).ptr + (init bases c).size ≤
    bases (c.domain, c.type) + (calculateTotalSizes cfgs (c.domain, c.type)).toNat
  total : ∀ arena, 32 ∣ (calculateTotalSizes cfgs arena).toNat

/-! ## The blocks in their order -/

def block (e : Entry) (i : Nat) : Block Nat Arena where
  index := i
  region := (e.memoryDomain, e.memoryType)
  align := e.alignment
  size := e.sizeInBytes

def blocks (entries : List Entry) : List (Block Nat Arena) :=
  supportedAlignments.flatMap fun align =>
    (entries.zipIdx.filter fun x => x.1.alignment = align).map fun x => block x.1 x.2

/-- Where an arena ends when its buffers are laid out without a limit. -/
def arenaEnd (entries : List Entry) (arena : Arena) : Nat := (layout (blocks entries)).next arena

/-- The largest size of an arena. -/
def maxTotal : Nat := 2 ^ 32 - 32

/-- What `build` does with a block. -/
def put (o : Offsets) (b : Block Nat Arena) : Offsets :=
  let start := Mpu.alignUp (o.next b.region) b.align
  { next := Function.update o.next b.region (start + BitVec.ofNat 32 b.size)
    assigned := Function.update o.assigned b.index start }

variable {entries : List Entry}

theorem assignedOffsets_eq (entries : List Entry) :
    assignedOffsets entries = (blocks entries).foldl put {} := by
  have hinner : ∀ (align : Nat) (xs : List (Entry × Nat)) (o : Offsets),
      xs.foldl (fun o x => Mpu.assign align o x.2 x.1) o =
        ((xs.filter fun x => x.1.alignment = align).map fun x => block x.1 x.2).foldl put o := by
    intro align xs
    induction xs with
    | nil => exact fun _ => rfl
    | cons x xs ih =>
      intro o
      by_cases hx : x.1.alignment = align
      · rw [List.filter_cons_of_pos (by simpa using hx), List.map_cons, List.foldl_cons,
          List.foldl_cons, ih]
        congr 1
        subst hx
        exact if_pos rfl
      · rw [List.filter_cons_of_neg (by simpa using hx), List.foldl_cons, ih, Mpu.assign, if_neg hx]
  rw [assignedOffsets, blocks, List.foldl_flatMap]
  congr 1
  funext o align
  exact hinner align _ o

theorem mem_blocks {b : Block Nat Arena} :
    b ∈ blocks entries ↔
      ∃ i e, entries[i]? = some e ∧ e.alignment ∈ supportedAlignments ∧ b = block e i := by
  simp only [blocks, List.mem_flatMap, List.mem_map, List.mem_filter, decide_eq_true_eq, Prod.exists]
  constructor
  · rintro ⟨align, hsup, e, i, ⟨hx, rfl⟩, rfl⟩
    exact ⟨i, e, List.mem_zipIdx_iff_getElem?.mp hx, hsup, rfl⟩
  · rintro ⟨i, e, hget, hsup, rfl⟩
    exact ⟨_, hsup, e, i, ⟨List.mem_zipIdx_iff_getElem?.mpr hget, rfl⟩, rfl⟩

theorem blocks_nodup (entries : List Entry) : ((blocks entries).map Block.index).Nodup := by
  have hidx : (entries.zipIdx.map Prod.snd).Nodup := by
    rw [List.zipIdx_map_snd]
    exact List.nodup_range'
  rw [blocks, List.map_flatMap, List.nodup_flatMap]
  refine ⟨fun align _ => ?_, ?_⟩
  · rw [List.map_map]
    exact hidx.sublist ((List.filter_sublist).map Prod.snd)
  · have hdistinct : supportedAlignments.Pairwise (· ≠ ·) := by decide
    refine hdistinct.imp fun {a b} hab i hi hi' => ?_
    obtain ⟨x, hx, rfl⟩ := List.mem_map.mp hi
    obtain ⟨y, hy, hxy⟩ := List.mem_map.mp hi'
    obtain ⟨⟨e, j⟩, he, rfl⟩ := List.mem_map.mp hx
    obtain ⟨⟨f, k⟩, hf, rfl⟩ := List.mem_map.mp hy
    simp only [List.mem_filter, decide_eq_true_eq] at he hf
    have hjk : k = j := hxy
    subst hjk
    have hget : entries[k]? = some e := List.mem_zipIdx_iff_getElem?.mp he.1
    have hget' : entries[k]? = some f := List.mem_zipIdx_iff_getElem?.mp hf.1
    obtain rfl : e = f := Option.some.inj (hget.symm.trans hget')
    exact hab (he.2.symm.trans hf.2)

/-! ## Counting in 32 bits -/

theorem mask_bits : ∀ k ∈ List.range 6, ∀ i ∈ List.range 32,
    (BitVec.ofNat 32 (2 ^ k) - 1).getLsbD i = decide (i < k) := by
  decide

theorem toNat_and_mask {k : Nat} (hk : k < 6) (x : BitVec 32) :
    (x &&& ~~~(BitVec.ofNat 32 (2 ^ k) - 1)).toNat = x.toNat / 2 ^ k * 2 ^ k := by
  have hshift : x &&& ~~~(BitVec.ofNat 32 (2 ^ k) - 1) = x >>> k <<< k := by
    refine BitVec.eq_of_getLsbD_eq fun i hi => ?_
    have hbit := mask_bits k (List.mem_range.mpr hk) i (List.mem_range.mpr hi)
    rw [BitVec.getLsbD_and, BitVec.getLsbD_not, hbit, BitVec.getLsbD_shiftLeft,
      BitVec.getLsbD_ushiftRight]
    by_cases hik : i < k
    · simp [hik]
    · have hadd : k + (i - k) = i := by omega
      simp [hi, hik, hadd]
  rw [hshift, BitVec.toNat_shiftLeft, BitVec.toNat_ushiftRight, Nat.shiftLeft_eq,
    Nat.shiftRight_eq_div_pow]
  exact Nat.mod_eq_of_lt (Nat.lt_of_le_of_lt (Nat.div_mul_le_self _ _) x.isLt)

theorem supported_pow {align : Nat} (h : align ∈ supportedAlignments) :
    ∃ k < 6, align = 2 ^ k := by
  revert h
  have hall : ∀ align ∈ supportedAlignments, ∃ k ∈ List.range 6, align = 2 ^ k := by decide
  exact fun h => (hall align h).imp fun k hk => ⟨List.mem_range.mp hk.1, hk.2⟩

theorem supported_le {align : Nat} (h : align ∈ supportedAlignments) : 0 < align ∧ align ≤ 32 := by
  revert align
  decide

/-- Aligning up is exact where the result fits. -/
theorem toNat_alignUp {align : Nat} (h : align ∈ supportedAlignments) {v : BitVec 32}
    (hv : v.toNat ≤ maxTotal) : (Mpu.alignUp v align).toNat = alignUp align v.toNat := by
  obtain ⟨hpos, hle⟩ := supported_le h
  obtain ⟨k, hk, rfl⟩ := supported_pow h
  have hsum : (v + BitVec.ofNat 32 (2 ^ k) - 1).toNat = v.toNat + 2 ^ k - 1 := by
    rw [maxTotal] at hv
    bv_omega
  rw [Mpu.alignUp, toNat_and_mask hk, hsum, alignUp]

/-- What is aligned up to 32 is a multiple of 32, so an arena is never larger than
`maxTotal`. -/
theorem dvd_alignUp_32 (v : BitVec 32) : 32 ∣ (Mpu.alignUp v 32).toNat :=
  ⟨_, (toNat_and_mask (k := 5) (by decide) _).trans (Nat.mul_comm _ _)⟩

theorem alignUp_32_le (v : BitVec 32) : (Mpu.alignUp v 32).toNat ≤ maxTotal := by
  have hdvd := dvd_alignUp_32 v
  have hlt := (Mpu.alignUp v 32).isLt
  rw [maxTotal]
  omega

/-! ## The layout without a limit -/

/-- The offsets are those of the layout. -/
structure Represents (o : Offsets) (p : Placed Nat Arena) : Prop where
  next : ∀ r, (o.next r).toNat = p.next r
  assigned : ∀ i, (o.assigned i).toNat = p.offset i

theorem Represents.start {o : Offsets} {p : Placed Nat Arena} {b : Block Nat Arena}
    (h : Represents o p) (hb : b.align ∈ supportedAlignments) (hp : p.next b.region ≤ maxTotal) :
    (Mpu.alignUp (o.next b.region) b.align).toNat = p.start b := by
  rw [toNat_alignUp hb (by rwa [h.next]), h.next]
  rfl

theorem Represents.put {o : Offsets} {p : Placed Nat Arena} {b : Block Nat Arena}
    (h : Represents o p) (hb : b.align ∈ supportedAlignments) (hp : p.next b.region ≤ maxTotal) :
    (∀ i, ((put o b).assigned i).toNat = (p.add b).offset i) ∧
      (p.start b + b.size ≤ maxTotal → Represents (put o b) (p.add b)) := by
  have hstart := h.start hb hp
  have hassigned : ∀ i, ((BufferLayout.put o b).assigned i).toNat = (p.add b).offset i := by
    intro i
    by_cases hi : i = b.index
    · subst hi
      rw [p.add_offset_self, ← hstart]
      exact congrArg BitVec.toNat (Function.update_self ..)
    · rw [p.add_offset_of_ne b hi, ← h.assigned]
      exact congrArg BitVec.toNat (Function.update_of_ne hi ..)
  refine ⟨hassigned, fun hend => ⟨fun r => ?_, hassigned⟩⟩
  by_cases hr : r = b.region
  · subst hr
    have hnew : (BufferLayout.put o b).next b.region =
        Mpu.alignUp (o.next b.region) b.align + BitVec.ofNat 32 b.size := Function.update_self ..
    rw [hnew, p.add_next_self, BitVec.toNat_add, hstart, BitVec.toNat_ofNat, Nat.add_mod_mod]
    refine Nat.mod_eq_of_lt ?_
    rw [maxTotal] at hend
    omega
  · rw [p.add_next_of_ne b hr, ← h.next]
    exact congrArg BitVec.toNat (Function.update_of_ne hr ..)

/-- **The offsets** of the code are those of the layout, as long as no arena overflows. -/
theorem represents_layout (bs : List (Block Nat Arena))
    (hsup : ∀ b ∈ bs, b.align ∈ supportedAlignments)
    (h : ∀ r, (layout bs).next r ≤ maxTotal) : Represents (bs.foldl put {}) (layout bs) := by
  induction bs using List.reverseRecOn with
  | nil => exact ⟨fun _ => rfl, fun _ => rfl⟩
  | append_singleton bs b ih =>
    have hpos : ∀ c ∈ bs ++ [b], 0 < c.align := fun c hc => (supported_le (hsup c hc)).1
    have hbefore : ∀ r, (layout bs).next r ≤ maxTotal := fun r =>
      (layout_next_mono bs [b] hpos r).trans (h r)
    have hrep := ih (fun c hc => hsup c (List.mem_append_left _ hc)) hbefore
    have hend := h b.region
    rw [layout_concat, Placed.add_next_self] at hend
    rw [List.foldl_concat, layout_concat]
    exact (hrep.put (hsup b (by simp)) (hbefore _)).2 hend

/-- A block that is laid out keeps its offset. -/
theorem put_assigned {i : Nat} (bs : List (Block Nat Arena)) (o : Offsets)
    (h : ∀ b ∈ bs, b.index ≠ i) : (bs.foldl put o).assigned i = o.assigned i := by
  induction bs generalizing o with
  | nil => rfl
  | cons b bs ih =>
    rw [List.foldl_cons, ih _ fun c hc => h c (List.mem_cons_of_mem _ hc)]
    exact Function.update_of_ne (h b List.mem_cons_self).symm ..

/-! ## The configurations -/

theorem configs_getElem? (entries : List Entry) (i : Nat) :
    (configs entries)[i]? = entries[i]?.map (config entries i) :=
  List.getElem?_mapIdx

/-- The sizes after some configurations: the largest end of each arena. -/
theorem extend_foldl {limit : Nat} (cfgs : List Config) (sizes : Arena → BitVec 32)
    (hsizes : ∀ r, (sizes r).toNat ≤ limit) (hl : limit < 2 ^ 32)
    (h : ∀ c ∈ cfgs, c.offset.toNat + c.size ≤ limit) :
    (∀ r, (cfgs.foldl extend sizes r).toNat ≤ limit) ∧
      (∀ r, (sizes r).toNat ≤ (cfgs.foldl extend sizes r).toNat) ∧
      ∀ c ∈ cfgs, c.offset.toNat + c.size ≤ (cfgs.foldl extend sizes (c.domain, c.type)).toNat := by
  induction cfgs generalizing sizes with
  | nil => exact ⟨hsizes, fun _ => Nat.le_refl _, nofun⟩
  | cons c cfgs ih =>
    have hc := h c List.mem_cons_self
    have hend : (c.offset + BitVec.ofNat 32 c.size).toNat = c.offset.toNat + c.size := by
      rw [BitVec.toNat_add, BitVec.toNat_ofNat, Nat.add_mod_mod, Nat.mod_eq_of_lt (by omega)]
    have hmax : ∀ a b : BitVec 32, (stdMax a b).toNat = max a.toNat b.toNat := by
      intro a b
      unfold stdMax
      split <;> bv_omega
    have hself : (extend sizes c (c.domain, c.type)).toNat =
        max (sizes (c.domain, c.type)).toNat (c.offset.toNat + c.size) := by
      rw [extend, Function.update_self, hmax, hend]
    have hother : ∀ r, r ≠ (c.domain, c.type) → extend sizes c r = sizes r := fun r hr =>
      Function.update_of_ne hr ..
    have hgrow : ∀ r, (sizes r).toNat ≤ (extend sizes c r).toNat ∧ (extend sizes c r).toNat ≤ limit := by
      intro r
      by_cases hr : r = (c.domain, c.type)
      · subst hr
        have := hsizes (c.domain, c.type)
        rw [hself]
        omega
      · rw [hother r hr]
        exact ⟨Nat.le_refl _, hsizes r⟩
    obtain ⟨hle, hmono, hinside⟩ := ih (extend sizes c) (fun r => (hgrow r).2)
      fun d hd => h d (List.mem_cons_of_mem _ hd)
    refine ⟨hle, fun r => (hgrow r).1.trans (hmono r), List.forall_mem_cons.mpr ⟨?_, hinside⟩⟩
    have := hmono (c.domain, c.type)
    rw [hself] at this
    exact (Nat.le_max_right ..).trans this

/-! ## The buffers -/

theorem laidOut_of_fits (bases : Arena → Nat)
    (hsup : ∀ e ∈ entries, e.alignment ∈ supportedAlignments)
    (h : ∀ arena, arenaEnd entries arena ≤ maxTotal) :
    LaidOut bases entries (configs entries) := by
  have hblocks : ∀ b ∈ blocks entries, b.align ∈ supportedAlignments := fun b hb => by
    obtain ⟨i, e, -, he, rfl⟩ := mem_blocks.mp hb
    exact he
  have hsound := layout_sound (blocks entries) (fun b hb => (supported_le (hblocks b hb)).1)
    (blocks_nodup entries)
  have hrep := represents_layout (blocks entries) hblocks h
  rw [← assignedOffsets_eq] at hrep
  have hmem : ∀ {i : Nat} {e : Entry}, entries[i]? = some e → block e i ∈ blocks entries :=
    fun {i e} he => mem_blocks.mpr ⟨i, e, he, hsup e (List.mem_of_getElem? he), rfl⟩
  have hget : ∀ {i : Nat} {c : Config}, (configs entries)[i]? = some c →
      ∃ e, entries[i]? = some e ∧ config entries i e = c := fun {i c} hc => by
    rw [configs_getElem?] at hc
    exact Option.map_eq_some_iff.mp hc
  have hends : ∀ c ∈ configs entries, c.offset.toNat + c.size ≤ maxTotal := by
    intro c hc
    obtain ⟨i, hi⟩ := List.mem_iff_getElem?.mp hc
    obtain ⟨e, he, rfl⟩ := hget hi
    have hinside := hsound.inside _ (hmem he)
    rw [← hrep.assigned] at hinside
    exact hinside.trans (h _)
  obtain ⟨hle, -, hinside⟩ := extend_foldl (configs entries) (fun _ => 0)
    (fun _ => Nat.zero_le maxTotal) (by decide) hends
  refine ⟨?_, ?_, ?_, fun _ => dvd_alignUp_32 _⟩
  · intro i j c d hij hi hj hr
    obtain ⟨e, he, rfl⟩ := hget hi
    obtain ⟨f, hf, rfl⟩ := hget hj
    have hne : block e i ≠ block f j := fun heq => hij (congrArg Block.index heq)
    have hpair := hsound.disjoint_of_ne (hmem he) (hmem hf) hne hr
    rw [← hrep.assigned, ← hrep.assigned] at hpair
    have hbase : bases (e.memoryDomain, e.memoryType) = bases (f.memoryDomain, f.memoryType) :=
      congrArg bases hr
    simp only [init, config] at hpair ⊢
    rw [hbase]
    exact hpair.imp (by simp only [block]; omega) (by simp only [block]; omega)
  · intro i e c he hc
    obtain ⟨e', he', rfl⟩ := hget hc
    cases he.symm.trans he'
    show e.alignment ∣ ((assignedOffsets entries).assigned i).toNat
    rw [hrep.assigned]
    exact hsound.aligned _ (hmem he)
  · intro c hc
    have htotal : c.offset.toNat + c.size ≤
        (calculateTotalSizes (configs entries) (c.domain, c.type)).toNat := by
      rw [calculateTotalSizes, toNat_alignUp (by decide) (hle _)]
      exact (hinside c hc).trans (le_alignUp (by decide))
    simp only [init]
    omega

/-- The first buffer that does not fit gets its offset all the same, and is too long for any
arena. -/
theorem fits_of_laidOut {bases : Arena → Nat} (h : LaidOut bases entries (configs entries))
    (arena : Arena) : arenaEnd entries arena ≤ maxTotal := by
  by_contra hn
  obtain ⟨pre, b, post, hsplit, hpre, hb⟩ := exists_first_beyond _ (Nat.lt_of_not_le hn)
  have hnodup := blocks_nodup entries
  have hblocks : ∀ c ∈ blocks entries, c.align ∈ supportedAlignments := fun c hc => by
    obtain ⟨i, e, -, he, rfl⟩ := mem_blocks.mp hc
    exact he
  rw [hsplit] at hnodup hblocks
  have hrep := represents_layout pre (fun c hc => hblocks c (List.mem_append_left _ hc)) hpre
  have hpost : ∀ c ∈ post, c.index ≠ b.index := by
    rw [List.map_append, List.map_cons, List.nodup_append] at hnodup
    have hnotin := (List.nodup_cons.mp hnodup.2.1).1
    exact fun c hc he => hnotin (he ▸ List.mem_map_of_mem hc)
  have hoffset : ((assignedOffsets entries).assigned b.index).toNat = (layout pre).start b := by
    rw [assignedOffsets_eq, hsplit, List.foldl_append, List.foldl_cons, put_assigned post _ hpost,
      (hrep.put (hblocks b (by simp)) (hpre _)).1, Placed.add_offset_self]
  obtain ⟨i, e, he, -, rfl⟩ := mem_blocks.mp (hsplit ▸ (by simp : b ∈ pre ++ b :: post))
  have hmem : config entries i e ∈ configs entries :=
    List.mem_of_getElem? (by rw [configs_getElem?, he]; rfl)
  have hinside := h.inside _ hmem
  have htotal := alignUp_32_le ((configs entries).foldl extend (fun _ => 0)
    (e.memoryDomain, e.memoryType))
  have hcfg : (config entries i e).offset.toNat = (layout pre).start (block e i) := hoffset
  have hsize : (config entries i e).size = (block e i).size := rfl
  simp only [init, calculateTotalSizes, hcfg, hsize] at hinside
  simp only [config] at hinside
  omega

/-- **Buffers.** They are laid out as they should be if and only if every arena, laid out
without a limit, ends at `maxTotal` at the latest. -/
theorem buffers_laid_out (bases : Arena → Nat) (entries : List Entry)
    (hsup : ∀ e ∈ entries, e.alignment ∈ supportedAlignments) :
    Mpu.build entries = .ok (inPlace (configs entries)) ∧
      (LaidOut bases entries (configs entries) ↔ ∀ arena, arenaEnd entries arena ≤ maxTotal) :=
  ⟨build_eq entries, fits_of_laidOut, laidOut_of_fits bases hsup⟩

def smallBuffers : List Entry :=
  [{ memoryDomain := .d1, memoryType := .nonCached, alignment := 2, sizeInBytes := 6 },
    { memoryDomain := .d1, memoryType := .nonCached, alignment := 32, sizeInBytes := 40 },
    { memoryDomain := .d2, memoryType := .cached, alignment := 4, sizeInBytes := 4 }]

/-- Three small buffers, two of them in one arena. -/
theorem buffers_laid_out_small :
    Mpu.build smallBuffers = .ok (inPlace (configs smallBuffers)) ∧
      (LaidOut (fun _ => 0x24000000) smallBuffers (configs smallBuffers) ↔
        ∀ arena, arenaEnd smallBuffers arena ≤ maxTotal) :=
  buffers_laid_out _ _ (by decide)

/-- The size of an arena for two buffers of almost 2 GiB each is zero. -/
theorem large_buffers_outside :
    ¬ ∀ (bases : Arena → Nat) (entries : List Entry),
      (∀ e ∈ entries, e.alignment ∈ supportedAlignments) →
        LaidOut bases entries (configs entries) := by
  intro h
  have hl := h (fun _ => 0x24000000)
    [{ memoryDomain := .d1, memoryType := .nonCached, alignment := 1, sizeInBytes := 0x7FFFFFFF },
      { memoryDomain := .d1, memoryType := .nonCached, alignment := 1, sizeInBytes := 0x7FFFFFFF }]
    (by decide)
  exact absurd (hl.inside _ List.mem_cons_self) (by decide)

end StLib.Board.BufferLayout
