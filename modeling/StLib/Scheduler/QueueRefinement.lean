import StLib.Scheduler.Queue

/-! # The packed queue and sorted insertion

What `insert_sorted` and `remove_sorted` do to the list in the packed word, for a
queue sorted by the signed difference of its deadlines. An id goes in after every
queued task its own is not before, unless its deadline is half the range or more
after the front's and the search meets such a task in the middle: then it goes to
the front of the queue (`packed_queue_iff`). -/
namespace StLib.Scheduler.QueueRefinement

open StLib.Base.NibbleWord StLib.Base.SortedQueue StLib.Scheduler.Model StLib.Scheduler.Queue

/-- `(int32_t)(new - old) >= 0`, on the deadlines of two slots. -/
def notBefore (s : State) (new old : Slot) : Bool :=
  decide (0 ≤ ((s.tasks new).nextFireUs - (s.tasks old).nextFireUs).toInt)

/-- No queued task is before one ahead of it. -/
def Sorted (s : State) (q : List Slot) : Prop := q.Pairwise fun i j => notBefore s j i = true

/-- The new task is not before the front, or is before the last one, or is not
before the one in the middle. -/
def Placed (s : State) (q : List Slot) (id : Slot) : Prop :=
  (∀ a ∈ q.head?, notBefore s id a = true) ∨ (∀ a ∈ q.getLast?, notBefore s id a = false) ∨
    ∀ a ∈ q[q.length / 2]?, notBefore s id a = true

/-! ## Deadlines on a circle -/

theorem toInt_nonneg_iff (x : BitVec 32) : 0 ≤ x.toInt ↔ x.toNat < 2 ^ 31 := by
  have := x.isLt
  rw [BitVec.toInt_eq_toNat_cond]
  split <;> omega

/-- With `c` not before `x` the tasks it is not before come first. -/
theorem nonneg_of_later {x a b c : BitVec 32} (hxa : 0 ≤ (a - x).toInt) (hxb : 0 ≤ (b - x).toInt)
    (hab : 0 ≤ (b - a).toInt) (hxc : 0 ≤ (c - x).toInt) (hbc : 0 ≤ (c - b).toInt) :
    0 ≤ (c - a).toInt := by
  simp only [toInt_nonneg_iff, BitVec.toNat_sub] at *
  have := x.isLt
  have := a.isLt
  have := b.isLt
  have := c.isLt
  omega

/-- With `c` before `x` they come last. -/
theorem nonneg_of_earlier {x a b c : BitVec 32} (hxa : 0 ≤ (a - x).toInt)
    (hxb : 0 ≤ (b - x).toInt) (hab : 0 ≤ (b - a).toInt) (hxc : ¬ 0 ≤ (c - x).toInt)
    (hac : 0 ≤ (c - a).toInt) : 0 ≤ (c - b).toInt := by
  simp only [toInt_nonneg_iff, BitVec.toNat_sub] at *
  have := x.isLt
  have := a.isLt
  have := b.isLt
  have := c.isLt
  omega

theorem notBefore_self (s : State) (a : Slot) : notBefore s a a = true := by
  simp [notBefore]

theorem Sorted.le {s : State} {q : List Slot} (hs : Sorted s q) {i j : Nat} (hij : i ≤ j)
    (hj : j < q.length) : notBefore s q[j] q[i] = true := by
  rcases Nat.lt_or_ge i j with hlt | hge
  · exact List.pairwise_iff_getElem.mp hs i j (by omega) hj hlt
  · obtain rfl : i = j := by omega
    exact notBefore_self s _

/-- A task not before the front: those it is not before come first. -/
theorem Sorted.later {s : State} {q : List Slot} (hs : Sorted s q) {id : Slot} {i j : Nat}
    (hij : i ≤ j) (hj : j < q.length) (hfront : notBefore s id q[0] = true)
    (h : notBefore s id q[j] = true) : notBefore s id q[i] = true := by
  have hi := hs.le (Nat.zero_le i) (by omega)
  have hzj := hs.le (Nat.zero_le j) hj
  have hle := hs.le hij hj
  simp only [notBefore, decide_eq_true_eq] at *
  exact nonneg_of_later hi hzj hle hfront h

/-- A task before the front: those it is not before come last. -/
theorem Sorted.earlier {s : State} {q : List Slot} (hs : Sorted s q) {id : Slot} {i j : Nat}
    (hij : i ≤ j) (hj : j < q.length) (hfront : notBefore s id q[0] = false)
    (h : notBefore s id q[i] = true) : notBefore s id q[j] = true := by
  have hi := hs.le (Nat.zero_le i) (by omega)
  have hzj := hs.le (Nat.zero_le j) hj
  have hle := hs.le hij hj
  simp only [notBefore, decide_eq_true_eq, decide_eq_false_iff_not] at *
  exact nonneg_of_earlier hi hzj hle hfront h

/-! ## The position -/

/-- The search asks the list. -/
theorem insertPos_eq {s : State} {q : List Slot} (h : Holds s q) (id : Slot) :
    insertPos s id = search (fun i => q[i]?.any (notBefore s id)) 32 0 q.length := by
  rw [insertPos, h.toNat]
  refine search_congr 32 0 _ fun i _ hi => ?_
  rw [h.getAt hi, List.getElem?_eq_getElem hi]
  rfl

/-- Where the tasks the new one is not before come first, it goes after them. -/
theorem insertIdx_eq_insertAfter {s : State} {q : List Slot} (h : Holds s q) {id : Slot}
    (mono : ∀ i j (_ : i ≤ j) (hj : j < q.length), notBefore s id q[j] = true →
      notBefore s id q[i] = true) :
    q.insertIdx (insertPos s id) id = insertAfter (notBefore s id) id q := by
  have hle := insertPos_le h id
  have hlen := h.length_le
  obtain ⟨hbefore, hafter⟩ := search_spec (fun i => q[i]?.any (notBefore s id)) 32 0 q.length
    (Nat.zero_le _) (by omega) (by
      intro i j _ hij hj ht
      simp only [List.getElem?_eq_getElem hj, Option.any_some] at ht
      simp only [List.getElem?_eq_getElem (show i < q.length by omega), Option.any_some]
      exact mono i j hij hj ht)
  rw [← insertPos_eq h id] at hbefore hafter
  rw [insertIdx_eq_append id q _ hle]
  conv_rhs => rw [← List.take_append_drop (insertPos s id) q]
  refine (insertAfter_append (fun hne => ?_) fun a ha => ?_).symm
  · have hpos : 0 < insertPos s id := by
      rcases Nat.eq_zero_or_pos (insertPos s id) with h0 | hpos
      · simp [h0] at hne
      · exact hpos
    have hb := hbefore (insertPos s id - 1) (Nat.zero_le _) (by omega)
    rw [List.getElem?_eq_getElem (by omega), Option.any_some] at hb
    rw [List.getLast_eq_getElem]
    simpa [List.length_take, Nat.min_eq_left hle] using hb
  · obtain ⟨i, hi, rfl⟩ := List.getElem_of_mem ha
    rw [List.length_drop] at hi
    have hb := hafter (insertPos s id + i) (Nat.le_add_right ..) (by omega)
    rw [List.getElem?_eq_getElem (by omega), Option.any_some] at hb
    rw [List.getElem_drop]
    exact hb

/-- Where they come last, the middle decides between the two ends. -/
theorem insertPos_of_last {s : State} {q : List Slot} (h : Holds s q) {id : Slot}
    (hq : 0 < q.length)
    (mono : ∀ i j (_ : i ≤ j) (hj : j < q.length), notBefore s id q[i] = true →
      notBefore s id q[j] = true) :
    insertPos s id = if notBefore s id q[q.length / 2] then q.length else 0 := by
  have hlen := h.length_le
  rw [insertPos_eq h id, search_of_mono _ 31 hq (by omega) (by
    intro i j hij hj ht
    simp only [List.getElem?_eq_getElem (show i < q.length by omega), Option.any_some] at ht
    simp only [List.getElem?_eq_getElem hj, Option.any_some]
    exact mono i j hij hj ht), List.getElem?_eq_getElem (by omega), Option.any_some]

/-! ## Main results -/

/-- What the packed queue holds is one list. -/
theorem holds_insertSorted_iff {s : State} {q l : List Slot} (h : Holds s q) (hl : q.length < 16)
    (id : Slot) : Holds (insertSorted s id) l ↔ q.insertIdx (insertPos s id) id = l := by
  have hins := insertSorted_holds h hl id
  exact ⟨fun h' => hins.det h', fun he => he ▸ hins⟩

theorem insertSorted_iff {s : State} {q : List Slot} (h : Holds s q) (hs : Sorted s q)
    (hl : q.length < 16) {id : Slot} (hid : id ∉ q) :
    Holds (insertSorted s id) (insertAfter (notBefore s id) id q) ↔ Placed s q id := by
  rw [holds_insertSorted_iff h hl]
  rcases Nat.eq_zero_or_pos q.length with h0 | hpos
  · obtain rfl := List.length_eq_zero_iff.mp h0
    have hle := insertPos_le h id
    simp only [List.length_nil, Nat.le_zero] at hle
    simp [hle, insertAfter, Placed]
  have hhead : q.head? = some q[0] := by rw [List.head?_eq_getElem?, List.getElem?_eq_getElem hpos]
  have hl1 : q.length - 1 < q.length := by omega
  have hl2 : q.length / 2 < q.length := by omega
  have hlast : q.getLast? = some q[q.length - 1] := by
    rw [List.getLast?_eq_getElem?, List.getElem?_eq_getElem hl1]
  have hmid : q[q.length / 2]? = some q[q.length / 2] := List.getElem?_eq_getElem hl2
  simp only [Placed, hhead, hlast, hmid, Option.mem_def, Option.some.injEq, forall_eq']
  cases hfront : notBefore s id q[0] with
  | true =>
    simp only [true_or, iff_true]
    exact insertIdx_eq_insertAfter h fun i j hij hj => hs.later hij hj hfront
  | false =>
    have hmono : ∀ i j (_ : i ≤ j) (hj : j < q.length), notBefore s id q[i] = true →
        notBefore s id q[j] = true := fun i j hij hj => hs.earlier hij hj hfront
    cases hend : notBefore s id q[q.length - 1] with
    | false =>
      -- the new task is before all
      simp only [true_or, or_true, iff_true]
      refine insertIdx_eq_insertAfter h fun i j hij hj ht => ?_
      rw [hmono j (q.length - 1) (by omega) (by omega) ht] at hend
      cases hend
    | true =>
      have hall : insertAfter (notBefore s id) id q = q ++ [id] := by
        have hu : ∀ hne : q ≠ [], notBefore s id (q.getLast hne) = true := fun hne => by
          rw [List.getLast_eq_getElem]
          exact hend
        simpa using insertAfter_append (v := []) hu (by simp)
      rw [hall, insertPos_of_last h hpos hmono]
      cases hm : notBefore s id q[q.length / 2] with
      | true => simp [List.insertIdx_length_self]
      | false =>
        simp only [Bool.false_eq_true, if_false, List.insertIdx_zero, reduceCtorEq, or_false,
          iff_false]
        intro he
        obtain ⟨a, l, rfl⟩ := List.exists_cons_of_length_pos hpos
        rw [List.cons_append, List.cons.injEq] at he
        exact hid (he.1 ▸ List.mem_cons_self)

/-- **The packed queue is a sorted list**: `insert_sorted` puts an id after every
queued task its own is not before exactly when the new deadline is `Placed`, and
`remove_sorted` erases an id; the count follows. -/
theorem packed_queue_iff {s : State} {q : List Slot} (h : Holds s q) (nd : q.Nodup)
    (hs : Sorted s q) :
    (∀ id ∉ q, q.length < 16 →
      ((Holds (insertSorted s id) (insertAfter (notBefore s id) id q) ∧
        (insertSorted s id).activeTaskCount = s.activeTaskCount + 1#32) ↔ Placed s q id)) ∧
    ∀ id ∈ q, Holds (removeSorted s id) (q.erase id) ∧
      (removeSorted s id).activeTaskCount = s.activeTaskCount - 1#32 := by
  refine ⟨fun id hid hl => ?_, fun id hid => ?_⟩
  · have hcount : (insertSorted s id).activeTaskCount = s.activeTaskCount + 1#32 := rfl
    rw [and_iff_left hcount]
    exact insertSorted_iff h hs hl hid
  · have hrem := removeSorted_holds h nd hid
    refine ⟨hrem, ?_⟩
    have hpos := List.length_pos_of_mem hid
    rw [hrem.count, h.count, List.length_erase_of_mem hid, eq_comm, BitVec.sub_eq_iff_eq_add,
      ← BitVec.ofNat_add, Nat.sub_add_cancel hpos]

/-- Tasks 0, 1 and 2 are due at 900, 950 and 1100 µs of a clock at 1000 µs, whose
interrupt is late; task 3 is new, with the longest period there is, and so is task 4,
due at once. -/
def lateQueue : State where
  tasks i := { nextFireUs :=
    [900#32, 950#32, 1100#32, 1000#32 + 0x7FFFFFFF#32, 1000#32].getD i.val 0#32 }
  sortedTaskIds := 0x210#64
  activeTaskCount := 3#32
  freeBitmap := 0xFFFFFFF0#32
  globalTickUs := 1000#64

theorem lateQueue_holds : Holds lateQueue [0, 1, 2] := by
  refine ⟨⟨by decide, fun i => ?_⟩, rfl⟩
  rcases Nat.lt_or_ge i 16 with hi | hi
  · revert i
    decide
  · rw [nibble_of_ge _ hi, List.getD_eq_default _ _ (Nat.le_trans (by decide) hi)]

theorem lateQueue_sorted : Sorted lateQueue [0, 1, 2] := by
  unfold Sorted
  decide

/-- A task due at 1000 µs goes in; task 1 comes out. -/
theorem packed_queue_late :
    Holds (insertSorted lateQueue 4) (insertAfter (notBefore lateQueue 4) 4 [0, 1, 2]) ∧
      Holds (removeSorted lateQueue 1) [0, 2] := by
  obtain ⟨hins, hrem⟩ := packed_queue_iff lateQueue_holds (by decide) lateQueue_sorted
  exact ⟨((hins 4 (by decide) (by decide)).mpr (by unfold Placed; decide)).1,
    (hrem 1 (by decide)).1⟩

/-- **A long period goes to the front**: a task due 35 minutes after a queue whose
interrupt is late is put before all of it. -/
theorem long_period_first :
    ¬ ∀ (s : State) (q : List Slot) (id : Slot), Holds s q → q.Nodup → Sorted s q → id ∉ q →
      q.length < 16 → Holds (insertSorted s id) (insertAfter (notBefore s id) id q) := by
  intro h
  have hins := h lateQueue [0, 1, 2] 3 lateQueue_holds (by decide) lateQueue_sorted (by decide)
    (by decide)
  have hpos := (holds_insertSorted_iff lateQueue_holds (by decide) 3).mp hins
  exact absurd hpos (by decide)

end StLib.Scheduler.QueueRefinement
