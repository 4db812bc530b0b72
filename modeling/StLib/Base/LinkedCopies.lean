import Mathlib
import StLib.Base.Bytes

/-! # Linked lists of copies

A table of nodes, each of which copies a block of bytes and names the node after it. A list
that collects regions into one block, and one that hands a block out to regions. -/
namespace StLib.Base.LinkedCopies

open StLib.Base.Bytes

/-! ## Blocks of bytes -/

def read (m : Memory) (a n : Nat) : List Byte := (m.advance a).bytes n

def Apart (a n b k : Nat) : Prop := a + n ≤ b ∨ b + k ≤ a

structure Region where
  address : Nat
  size : Nat
deriving DecidableEq

def Region.Apart (r s : Region) : Prop := LinkedCopies.Apart r.address r.size s.address s.size

def total (rs : List Region) : Nat := (rs.map Region.size).sum

theorem read_congr {m m' : Memory} {a a' n : Nat} (h : ∀ i < n, m (a + i) = m' (a' + i)) :
    read m' a' n = read m a n := bytes_congr h

theorem read_add (m : Memory) (a n k : Nat) : read m a (n + k) = read m a n ++ read m (a + n) k := by
  unfold read Memory.bytes
  rw [List.range_add, List.map_append, List.map_map]
  refine congrArg _ (List.map_congr_left fun i _ => ?_)
  show m (a + (n + i)) = m (a + n + i)
  rw [Nat.add_assoc]

/-! ## Copies -/

structure Copy where
  source : Nat
  destination : Nat
  size : Nat
deriving DecidableEq

def Copy.run (c : Copy) (m : Memory) : Memory := fun a =>
  if c.destination ≤ a ∧ a < c.destination + c.size then m (c.source + (a - c.destination)) else m a

def runAll : List Copy → Memory → Memory
  | [], m => m
  | c :: cs, m => runAll cs (c.run m)

theorem runAll_append (cs ds : List Copy) (m : Memory) :
    runAll (cs ++ ds) m = runAll ds (runAll cs m) := by
  induction cs generalizing m with
  | nil => rfl
  | cons c cs ih => exact ih (c.run m)

theorem read_run (c : Copy) (m : Memory) :
    read (c.run m) c.destination c.size = read m c.source c.size := by
  refine List.map_congr_left fun i hi => ?_
  have hlt := List.mem_range.mp hi
  show Copy.run c m (c.destination + i) = m (c.source + i)
  rw [Copy.run, if_pos ⟨Nat.le_add_right _ _, Nat.add_lt_add_left hlt _⟩, Nat.add_sub_cancel_left]

theorem read_run_apart (c : Copy) (m : Memory) {a n : Nat}
    (h : Apart a n c.destination c.size) : read (c.run m) a n = read m a n := by
  refine read_congr fun i hi => ?_
  unfold Apart at h
  rw [Copy.run, if_neg (by omega)]

/-! ## Nodes -/

structure Node (ι : Type) where
  copy : Copy
  next : Option ι
deriving DecidableEq

section Table

variable {ι : Type} {t t' : ι → Node ι}

/-- Execute a list from a node on. -/
def execute (t : ι → Node ι) : Nat → Option ι → Memory → Memory
  | 0, _, m => m
  | _ + 1, none, m => m
  | fuel + 1, some i, m => execute t fuel (t i).next ((t i).copy.run m)

/-- The copies of the nodes from one on. -/
inductive Path (t : ι → Node ι) : Option ι → List Copy → Prop
  | nil : Path t none []
  | cons {i : ι} {cs : List Copy} (h : Path t (t i).next cs) : Path t (some i) ((t i).copy :: cs)

/-- The copies that are executed from a node on. -/
def trace (t : ι → Node ι) : Nat → Option ι → List Copy
  | 0, _ => []
  | _ + 1, none => []
  | fuel + 1, some i => (t i).copy :: trace t fuel (t i).next

theorem execute_eq_runAll (t : ι → Node ι) (fuel : Nat) (i : Option ι) (m : Memory) :
    execute t fuel i m = runAll (trace t fuel i) m := by
  induction fuel generalizing i m with
  | zero => rfl
  | succ fuel ih =>
    cases i with
    | none => rfl
    | some i => exact ih (t i).next _

theorem Path.trace_eq {i : Option ι} {cs : List Copy} (h : Path t i cs) {fuel : Nat}
    (hf : cs.length ≤ fuel) : trace t fuel i = cs := by
  induction h generalizing fuel with
  | nil =>
    cases fuel with
    | zero => rfl
    | succ fuel => rfl
  | cons _ ih =>
    cases fuel with
    | zero => exact absurd hf (Nat.not_succ_le_zero _)
    | succ fuel => exact congrArg _ (ih (Nat.le_of_succ_le_succ hf))

/-- With fuel for its nodes a list runs the copies on its path. -/
theorem Path.execute_eq {i : Option ι} {cs : List Copy} (h : Path t i cs) {fuel : Nat}
    (hf : cs.length ≤ fuel) (m : Memory) : execute t fuel i m = runAll cs m := by
  rw [execute_eq_runAll, h.trace_eq hf]

/-- Consecutive nodes with the given copies, the last of which goes on to `last`. -/
def Chain (t : ι → Node ι) (node : Nat → ι) (last : Option ι) : Nat → List Copy → Prop
  | _, [] => True
  | i, [c] => t (node i) = { copy := c, next := last }
  | i, c :: c' :: cs =>
    t (node i) = { copy := c, next := some (node (i + 1)) } ∧ Chain t node last (i + 1) (c' :: cs)

variable {node : Nat → ι} {last : Option ι}

theorem Chain.path {cs ds : List Copy} {i : Nat} {c : Copy} (h : Chain t node last i (c :: cs))
    (hlast : Path t last ds) : Path t (some (node i)) (c :: cs ++ ds) := by
  induction cs generalizing i c with
  | nil =>
    have hnode : t (node i) = { copy := c, next := last } := h
    have hpath : Path t (some (node i)) ((t (node i)).copy :: ds) := .cons (by rwa [hnode])
    rwa [hnode] at hpath
  | cons c' cs ih =>
    obtain ⟨hnode, hrest⟩ := h
    have hpath : Path t (some (node i)) ((t (node i)).copy :: (c' :: cs ++ ds)) :=
      .cons (by rw [hnode]; exact ih hrest)
    rwa [hnode] at hpath

/-- A chain is a matter of its own nodes. -/
theorem Chain.congr {cs : List Copy} {i : Nat} (h : Chain t node last i cs)
    (ht : ∀ j, i ≤ j → j < i + cs.length → t' (node j) = t (node j)) : Chain t' node last i cs := by
  induction cs generalizing i with
  | nil => trivial
  | cons c cs ih =>
    have hfirst := ht i (Nat.le_refl i) (by rw [List.length_cons]; omega)
    cases cs with
    | nil => exact hfirst.trans h
    | cons c' cs =>
      obtain ⟨hnode, hrest⟩ := h
      refine ⟨hfirst.trans hnode, ih hrest fun j hj hlt => ht j (by omega) ?_⟩
      simp only [List.length_cons] at hlt ⊢
      omega

/-- Another node behind the last one. -/
theorem Chain.relink {cs : List Copy} {i : Nat} {c : Copy} {next : Option ι}
    (h : Chain t node last i (c :: cs))
    (hbefore : ∀ j, i ≤ j → j < i + cs.length → t' (node j) = t (node j))
    (hend : t' (node (i + cs.length)) = { t (node (i + cs.length)) with next }) :
    Chain t' node next i (c :: cs) := by
  induction cs generalizing i c with
  | nil =>
    have hnode : t (node i) = { copy := c, next := last } := h
    have hlast : t' (node i) = { t (node i) with next } := hend
    rw [hnode] at hlast
    exact hlast
  | cons c' cs ih =>
    obtain ⟨hnode, hrest⟩ := h
    have hlen : i + 1 + cs.length = i + (c' :: cs).length := by
      rw [List.length_cons]
      omega
    refine ⟨(hbefore i (Nat.le_refl i) (by rw [List.length_cons]; omega)).trans hnode, ?_⟩
    refine ih hrest (fun j hj hlt => hbefore j (by omega) (by omega)) ?_
    rw [hlen]
    exact hend

end Table

/-! ## Collecting and handing out -/

/-- Regions into one block. -/
def gather : Nat → List Region → List Copy
  | _, [] => []
  | base, r :: rs => ⟨r.address, base, r.size⟩ :: gather (base + r.size) rs

/-- One block out to regions. -/
def scatter : Nat → List Region → List Copy
  | _, [] => []
  | base, r :: rs => ⟨base, r.address, r.size⟩ :: scatter (base + r.size) rs

/-- The blocks of the sizes of regions that lie from an address on. -/
def slices (m : Memory) : Nat → List Region → List (List Byte)
  | _, [] => []
  | base, r :: rs => read m base r.size :: slices m (base + r.size) rs

theorem total_cons (r : Region) (rs : List Region) : total (r :: rs) = r.size + total rs := by
  rw [total, List.map_cons, List.sum_cons, total]

section Walk

variable {β : Type*} {walk : Nat → List Region → List β} {item : Nat → Region → β}

variable (walk item) in
/-- What lies at an index, when regions are walked through with the address in one block. -/
theorem walk_getElem? (hnil : ∀ base, walk base [] = [])
    (hcons : ∀ base r rs, walk base (r :: rs) = item base r :: walk (base + r.size) rs) (base : Nat)
    (rs : List Region) (i : Nat) : (walk base rs)[i]? = rs[i]?.map (item (base + total (rs.take i))) := by
  induction rs generalizing base i with
  | nil =>
    rw [hnil]
    rfl
  | cons r rs ih =>
    rw [hcons]
    cases i with
    | zero => rfl
    | succ i =>
      rw [List.getElem?_cons_succ, List.getElem?_cons_succ, ih, List.take_succ_cons, total_cons, Nat.add_assoc]

theorem length_walk (hnil : ∀ base, walk base [] = [])
    (hcons : ∀ base r rs, walk base (r :: rs) = item base r :: walk (base + r.size) rs) (base : Nat)
    (rs : List Region) : (walk base rs).length = rs.length := by
  induction rs generalizing base with
  | nil => rw [hnil, List.length_nil, List.length_nil]
  | cons r rs ih => rw [hcons, List.length_cons, ih, List.length_cons]

end Walk

theorem length_gather (base : Nat) (rs : List Region) : (gather base rs).length = rs.length :=
  length_walk (fun _ => rfl) (fun _ _ _ => rfl) base rs

theorem length_scatter (base : Nat) (rs : List Region) : (scatter base rs).length = rs.length :=
  length_walk (fun _ => rfl) (fun _ _ _ => rfl) base rs

theorem gather_getElem? (base : Nat) (rs : List Region) (i : Nat) : (gather base rs)[i]? =
    rs[i]?.map fun r => ⟨r.address, base + total (rs.take i), r.size⟩ :=
  walk_getElem? gather (fun base r => ⟨r.address, base, r.size⟩) (fun _ => rfl) (fun _ _ _ => rfl) base rs i

theorem scatter_getElem? (base : Nat) (rs : List Region) (i : Nat) : (scatter base rs)[i]? =
    rs[i]?.map fun r => ⟨base + total (rs.take i), r.address, r.size⟩ :=
  walk_getElem? scatter (fun base r => ⟨base, r.address, r.size⟩) (fun _ => rfl) (fun _ _ _ => rfl) base rs i

theorem read_gather_apart {a n base : Nat} {rs : List Region} (m : Memory)
    (h : Apart a n base (total rs)) : read (runAll (gather base rs) m) a n = read m a n := by
  induction rs generalizing base m with
  | nil => rfl
  | cons r rs ih =>
    unfold Apart at h
    rw [total_cons] at h
    have hrest : Apart a n (base + r.size) (total rs) := by
      unfold Apart
      omega
    have hfirst : Apart a n base r.size := by
      unfold Apart
      omega
    rw [gather, runAll, ih _ hrest, read_run_apart _ _ hfirst]

/-- **Collected.** The block holds what the regions held. -/
theorem read_gather {base : Nat} {rs : List Region} (m : Memory)
    (h : ∀ r ∈ rs, Apart r.address r.size base (total rs)) :
    read (runAll (gather base rs) m) base (total rs) =
      rs.flatMap fun r => read m r.address r.size := by
  induction rs generalizing base m with
  | nil => rfl
  | cons r rs ih =>
    have hown := h r List.mem_cons_self
    have hrest : ∀ s ∈ rs, Apart s.address s.size (base + r.size) (total rs) ∧
        Apart s.address s.size base r.size := by
      intro s hs
      have hs := h s (List.mem_cons_of_mem r hs)
      unfold Apart at hs ⊢
      rw [total_cons] at hs
      omega
    have hbehind : Apart base r.size (base + r.size) (total rs) := Or.inl (Nat.le_refl _)
    rw [total_cons, read_add, gather, runAll, read_gather_apart _ hbehind, read_run,
      ih _ fun s hs => (hrest s hs).1, List.flatMap_cons]
    congr 1
    exact List.flatMap_congr fun s hs => read_run_apart _ _ (hrest s hs).2

theorem read_scatter_apart {a n base : Nat} {rs : List Region} (m : Memory)
    (h : ∀ r ∈ rs, Apart a n r.address r.size) :
    read (runAll (scatter base rs) m) a n = read m a n := by
  induction rs generalizing base m with
  | nil => rfl
  | cons r rs ih =>
    rw [scatter, runAll, ih _ fun s hs => h s (List.mem_cons_of_mem r hs),
      read_run_apart _ _ (h r List.mem_cons_self)]

theorem slices_congr {base base' : Nat} {rs : List Region} {m m' : Memory}
    (h : ∀ i < total rs, m (base + i) = m' (base' + i)) : slices m' base' rs = slices m base rs := by
  induction rs generalizing base base' with
  | nil => rfl
  | cons r rs ih =>
    rw [total_cons] at h
    have hfirst : read m' base' r.size = read m base r.size := read_congr fun i hi => h i (by omega)
    have hrest : slices m' (base' + r.size) rs = slices m (base + r.size) rs := by
      refine ih fun i hi => ?_
      have hi := h (r.size + i) (by omega)
      rwa [← Nat.add_assoc, ← Nat.add_assoc] at hi
    rw [slices, slices, hfirst, hrest]

/-- A block that is copied is cut the same. -/
theorem slices_run (c : Copy) {rs : List Region} (m : Memory) (h : total rs ≤ c.size) :
    slices (c.run m) c.destination rs = slices m c.source rs := by
  refine slices_congr fun i hi => ?_
  rw [Copy.run, if_pos (by omega), Nat.add_sub_cancel_left]

/-- **Handed out.** Each region holds its part of the block. -/
theorem read_scatter {base : Nat} {rs : List Region} (m : Memory) (hp : rs.Pairwise Region.Apart)
    (h : ∀ r ∈ rs, Apart r.address r.size base (total rs)) :
    (rs.map fun r => read (runAll (scatter base rs) m) r.address r.size) = slices m base rs := by
  induction rs generalizing base m with
  | nil => rfl
  | cons r rs ih =>
    obtain ⟨hfirst, hrest⟩ := List.pairwise_cons.mp hp
    have hown := h r List.mem_cons_self
    unfold Apart at hown
    rw [total_cons] at hown
    have hbehind : ∀ s ∈ rs, Apart s.address s.size (base + r.size) (total rs) := by
      intro s hs
      have hs := h s (List.mem_cons_of_mem r hs)
      unfold Apart at hs ⊢
      rw [total_cons] at hs
      omega
    have hslices : slices (Copy.run ⟨base, r.address, r.size⟩ m) (base + r.size) rs =
        slices m (base + r.size) rs := by
      refine slices_congr fun i hi => (if_neg ?_).symm
      dsimp only
      omega
    rw [List.map_cons, scatter, runAll, slices, read_scatter_apart _ hfirst, read_run,
      ih _ hrest hbehind, hslices]

end StLib.Base.LinkedCopies
