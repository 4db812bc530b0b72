import StLib.Scheduler.Interleaving

/-! # Calls and the timer interrupt

An interrupt that a call takes before it locks or after it has unlocked is one before or
after the whole call: until it locks, a call changes only what belongs to a slot that is
free, and reads what the handler leaves alone. The unlock of `schedule_next_interval` lets
the interrupt in between what the call found out and what it writes. -/
namespace StLib.Scheduler.Serializability

open StLib.Base.Runs StLib.Base.SortedQueue StLib.Base.Interrupts
open StLib.Scheduler.Model StLib.Scheduler.Queue StLib.Scheduler.Steps StLib.Scheduler.Invariant
open StLib.Scheduler.Reentrancy StLib.Scheduler.Interleaving

/-! ## What a call does before it locks -/

/-- The slot is being set up. -/
def edit (slot : Slot) (f : Task → Task) (free : BitVec 32) (idx : BitVec 16) (s : State) : State :=
  { setField slot f s with freeBitmap := free, timeoutIdx := idx }

section edit
variable {slot a : Slot} {f : Task → Task} {free : BitVec 32} {idx : BitVec 16}
variable {s t : State} {q : List Slot}

theorem edit_tasks_of_ne {i : Slot} (h : i ≠ slot) : (edit slot f free idx s).tasks i = s.tasks i :=
  Function.update_of_ne h ..

theorem setField_edit (g : Task → Task) :
    setField slot g (edit slot f free idx s) = edit slot (g ∘ f) free idx s := by
  have h := setField_setField slot f g s
  exact congrArg (fun t : State => { t with freeBitmap := free, timeoutIdx := idx }) h

theorem insertPos_edit (h : Holds s q) (hq : slot ∉ q) (ha : a ≠ slot) :
    insertPos (edit slot f free idx s) a = insertPos s a := by
  refine search_congr _ _ _ fun i _ hi => ?_
  have hlt : i < q.length := by rwa [← h.toNat]
  have hget : getAt s (BitVec.ofNat 8 i) ≠ slot := fun he =>
    hq (he ▸ h.getAt hlt ▸ List.getElem_mem hlt)
  have hsame : getAt (edit slot f free idx s) (BitVec.ofNat 8 i) = getAt s (BitVec.ofNat 8 i) := rfl
  rw [hsame, edit_tasks_of_ne ha, edit_tasks_of_ne hget]

theorem insertSorted_edit (h : Holds s q) (hq : slot ∉ q) (ha : a ≠ slot) :
    insertSorted (edit slot f free idx s) a = edit slot f free idx (insertSorted s a) := by
  rw [insertSorted, insertPos_edit h hq ha]
  rfl

theorem fired_edit (ha : a ≠ slot) :
    fired (edit slot f free idx s) a = edit slot f free idx (fired s a) := by
  have htask : (edit slot f free idx s).tasks a = s.tasks a := edit_tasks_of_ne ha
  have hrefired : refired (edit slot f free idx s) a = refired s a := by
    rw [refired, htask, refired]
    rfl
  have hslot : (fired s a).tasks slot = s.tasks slot := fired_tasks_of_ne ha.symm
  have htasks : Function.update (Function.update s.tasks slot (f (s.tasks slot))) a (refired s a) =
      Function.update (Function.update s.tasks a (refired s a)) slot (f (s.tasks slot)) :=
    Function.update_comm ha.symm ..
  show { fired s a with
    tasks := Function.update (Function.update s.tasks slot (f (s.tasks slot))) a
      (refired (edit slot f free idx s) a), freeBitmap := free, timeoutIdx := idx } = _
  rw [hrefired, htasks, edit, setField, hslot]
  rfl

theorem fireHead_edit (h : Consistent s (a :: q)) (hq : slot ∉ a :: q) :
    fireHead (edit slot f free idx s) = edit slot f free idx (fireHead s) := by
  obtain ⟨ha, hq'⟩ := not_or.mp (mt List.mem_cons.mpr hq)
  have hne : a ≠ slot := fun he => ha he.symm
  have hfront : frontId (edit slot f free idx s) = a := h.holds.front
  rw [fireHead_eq hfront, fireHead_eq h.holds.front, edit_tasks_of_ne hne, fired_edit hne]
  split
  next =>
    have hh : Holds (fired s a) q := h.holds.pop.congr rfl rfl
    exact insertSorted_edit hh hq' hne
  next => rfl

theorem fireHead_free (s : State) : (fireHead s).freeBitmap = s.freeBitmap := by
  rw [fireHead_eq rfl]
  split <;> rfl

theorem popDue_edit : ∀ {n : Nat} {s : State} {q : List Slot}, Consistent s q →
    s.isFree slot = true →
      popDue n (edit slot f free idx s) =
        (popDue n s).map fun r => (edit slot f free idx r.1, r.2)
  | 0, _, _, _, _ => rfl
  | n + 1, s, q, h, hs => by
    have hslot := h.notQueued_of_free hs
    cases q with
    | nil =>
      have h0 : s.activeTaskCount = 0#32 := h.holds.count_eq_zero.mpr rfl
      have h0' : (edit slot f free idx s).activeTaskCount = 0#32 := h0
      rw [popDue, popDue, if_pos h0, if_pos h0']
      rfl
    | cons a q =>
      have h0 : s.activeTaskCount ≠ 0#32 := fun h0 => by
        cases h.holds.count_eq_zero.mp h0
      have h0' : (edit slot f free idx s).activeTaskCount ≠ 0#32 := h0
      have hne : a ≠ slot := fun he => hslot (he ▸ List.mem_cons_self)
      have hfront : frontId (edit slot f free idx s) = frontId s := rfl
      have htask : (edit slot f free idx s).tasks (frontId s) = s.tasks (frontId s) := by
        rw [h.holds.front]
        exact edit_tasks_of_ne hne
      have hfree : (fireHead s).isFree slot = true := by rw [State.isFree, fireHead_free]; exact hs
      rw [popDue, popDue, if_neg h0, if_neg h0', hfront, htask, fireHead_edit h hslot,
        popDue_edit h.fireHead hfree]
      have htick : (edit slot f free idx s).globalTickUs = s.globalTickUs := rfl
      rw [htick]
      dsimp only
      split
      next => rfl
      next => rw [Option.map_map, Option.map_map]; rfl

theorem schedule_edit (h : Holds s q) (hq : slot ∉ q) :
    scheduleNextInterval (edit slot f free idx s) =
      edit slot f free idx (scheduleNextInterval s) := by
  rw [scheduleNextInterval, scheduleNextInterval]
  have hcount : (edit slot f free idx s).activeTaskCount = s.activeTaskCount := rfl
  rw [hcount]
  split
  next => rfl
  next h0 =>
    cases q with
    | nil => exact absurd (h.count_eq_zero.mpr rfl) h0
    | cons a q =>
      have hne : a ≠ slot := fun he => hq (he ▸ List.mem_cons_self)
      have hfront : frontId (edit slot f free idx s) = frontId s := rfl
      have htask : (edit slot f free idx s).tasks (frontId s) = s.tasks (frontId s) := by
        rw [h.front]
        exact edit_tasks_of_ne hne
      have htick : (edit slot f free idx s).globalTickUs = s.globalTickUs := rfl
      have htimer : (edit slot f free idx s).timer = s.timer := rfl
      rw [hfront, htask, htick, htimer]
      dsimp only
      generalize (s.tasks (frontId s)).nextFireUs - s.globalTickUs.setWidth 32 = diff
      by_cases hnear : -1 ≤ diff.toInt ∧ diff.toInt ≤ 1
      · rw [if_pos hnear, if_pos hnear]
        rfl
      · rw [if_neg hnear, if_neg hnear]
        generalize (if diff.toInt < -1 then 0#32 - diff else diff) = interval
        by_cases hover : interval - 1#32 < s.timer.cnt
        · rw [if_pos hover, if_pos hover]
          rfl
        · rw [if_neg hover, if_neg hover]
          rfl

theorem popDue_keeps (hc : Consistent s q) (hs : s.isFree slot = true) {n : Nat}
    {r : State × List Slot} (h : popDue n s = some r) :
    ∃ q', Consistent r.1 q' ∧ r.1.isFree slot = true := by
  refine (popDue_rule (P := fun t _ => ∃ q', Consistent t q' ∧ t.isFree slot = true) ?_
    ⟨q, hc, hs⟩ h (l := [])).1
  rintro t - ⟨q', ht, hfree⟩ h0 -
  cases q' with
  | nil => exact absurd (ht.holds.count_eq_zero.mpr rfl) h0
  | cons a q' => exact ⟨_, ht.fireHead, by rw [State.isFree, fireHead_free]; exact hfree⟩

/-- The handler does not see the slot. -/
theorem interrupt_edit (h : Consistent s q) (hs : s.isFree slot = true) :
    interrupt (edit slot f free idx s) = (interrupt s).map (edit slot f free idx) := by
  let moved := { s with globalTickUs := s.globalTickUs + s.currentIntervalUs.setWidth 64 }
  have hmoved : Consistent moved q := h.congr rfl rfl rfl rfl rfl
  have hpop : popDue 17 (edit slot f free idx moved) =
      (popDue 17 moved).map fun r => (edit slot f free idx r.1, r.2) := popDue_edit hmoved hs
  show ((popDue 17 (edit slot f free idx moved)).map _).map Prod.fst =
    (((popDue 17 moved).map _).map Prod.fst).map _
  rw [hpop]
  cases hr : popDue 17 moved with
  | none => rfl
  | some r =>
    obtain ⟨q', hq', hfree⟩ := popDue_keeps hmoved hs hr
    exact congrArg some (schedule_edit hq'.holds (hq'.notQueued_of_free hfree))

end edit

/-! ## What the handler leaves alone -/

/-- A state that interrupts have made of `b`. -/
structure Orbit (b s : State) : Prop where
  queue : ∃ q, Consistent s q
  free : s.freeBitmap = b.freeBitmap
  timeoutIdx : s.timeoutIdx = b.timeoutIdx
  repeating : ∀ i, (s.tasks i).repeating = (b.tasks i).repeating
  id : ∀ i, (s.tasks i).id = (b.tasks i).id

theorem fireHead_repeating (s : State) (i : Slot) :
    ((fireHead s).tasks i).repeating = (s.tasks i).repeating := by
  rw [fireHead_eq rfl]
  have h : ((fired s (frontId s)).tasks i).repeating = (s.tasks i).repeating := by
    by_cases hi : i = frontId s
    · rw [hi, fired_tasks_self, refired_repeating]
    · rw [fired_tasks_of_ne hi]
  split
  next => exact h
  next => exact h

theorem fireHead_id (s : State) (i : Slot) :
    ((fireHead s).tasks i).id = (s.tasks i).id := by
  rw [fireHead_eq rfl]
  have h : ((fired s (frontId s)).tasks i).id = (s.tasks i).id := by
    by_cases hi : i = frontId s
    · rw [hi, fired_tasks_self, refired]
      split <;> rfl
    · rw [fired_tasks_of_ne hi]
  split
  next => exact h
  next => exact h

theorem Orbit.interrupt {b s t : State} (h : Orbit b s) (ht : interrupt s = some t) : Orbit b t := by
  obtain ⟨q, hq⟩ := h.queue
  obtain ⟨r, hr, hq'⟩ := hq.onTimerUpdate
  rw [Interleaving.interrupt, hr] at ht
  obtain rfl := Option.some.inj ht
  obtain ⟨r', hpop, rfl⟩ := Option.map_eq_some_iff.mp hr
  let moved := { s with globalTickUs := s.globalTickUs + s.currentIntervalUs.setWidth 64 }
  have hpop : popDue 17 moved = some r' := hpop
  have hkept := (popDue_rule (s := moved) (P := fun t _ => t.freeBitmap = b.freeBitmap ∧
      t.timeoutIdx = b.timeoutIdx ∧ (∀ i, (t.tasks i).repeating = (b.tasks i).repeating) ∧
      ∀ i, (t.tasks i).id = (b.tasks i).id) (fun t _ ⟨h1, h2, h3, h4⟩ _ _ =>
        ⟨(fireHead_free t).trans h1, (fireHead_timeoutIdx t).trans h2,
          fun i => (fireHead_repeating t i).trans (h3 i), fun i => (fireHead_id t i).trans (h4 i)⟩)
    ⟨h.free, h.timeoutIdx, h.repeating, h.id⟩ hpop (l := [])).1
  obtain ⟨h1, h2, h3, h4⟩ := hkept
  exact ⟨hq', by simpa using h1, (scheduleNextInterval_timeoutIdx _).trans h2, by simpa using h3,
    by simpa using h4⟩

/-! ## Every call is steady up to its section -/

theorem commutes_id (b : State) : Commutes interrupt (Orbit b) id := fun s _ => by
  rw [id, Option.map_id_fun]
  rfl

theorem commutes_edit {b : State} {slot : Slot} (hs : b.isFree slot = true) (f : Task → Task)
    (free : BitVec 32) (idx : BitVec 16) :
    Commutes interrupt (Orbit b) (edit slot f free idx) := fun s h => by
  obtain ⟨q, hq⟩ := h.queue
  exact interrupt_edit hq (by rw [State.isFree, h.free]; exact hs)

theorem scheduleProgram_closes {k : Program State} {n : Nat} (hn : 0 < n) (hk : k.Closes n) :
    (scheduleProgram k).Closes n := by
  have harm : ∀ diff, (armInterval diff k).Closes n := fun diff => by
    rw [armInterval]
    split
    next => exact ⟨hn, fun _ => ⟨hn, fun _ => ⟨hn, fun _ => hk⟩⟩⟩
    next =>
      refine ⟨hn, fun _ => ⟨hn, fun _ => ⟨hn, fun _ => ⟨hn, fun s => ?_⟩⟩⟩⟩
      beta_reduce
      split
      next => exact ⟨hn, fun _ => ⟨hn, fun _ => ⟨hn, fun _ => ⟨hn, fun _ => ⟨hn, fun _ => hk⟩⟩⟩⟩⟩
      next => exact ⟨hn, fun _ => hk⟩
  refine ⟨hn, fun s => ?_⟩
  beta_reduce
  split
  next => exact ⟨hn, fun _ => ⟨hn, fun _ => ⟨hn, fun _ => hk⟩⟩⟩
  next => exact ⟨hn, Nat.succ_pos n, fun _ => ⟨Nat.succ_pos n, harm _⟩⟩

theorem section_closes : (scheduleProgram (.unlock .ret)).Closes 1 :=
  scheduleProgram_closes Nat.one_pos ⟨Nat.one_pos, rfl⟩

theorem steady_arm {b : State} {slot : Slot} (hs : b.isFree slot = true) (f : Task → Task)
    (free : BitVec 32) (idx : BitVec 16) (p : BitVec 32) :
    Steady interrupt (Orbit b) (edit slot f free idx) (armProgram slot p) :=
  .lock (commutes_edit hs f free idx)
    ⟨Nat.one_pos, fun _ => ⟨Nat.one_pos, fun _ => section_closes⟩⟩

theorem steady_drop (b : State) (slot : Slot) :
    Steady interrupt (Orbit b) id (dropProgram slot) :=
  .lock (commutes_id b) ⟨Nat.one_pos, fun _ => ⟨Nat.one_pos, fun _ => section_closes⟩⟩

/-- A field of the slot is written. -/
theorem steady_field {b : State} {slot : Slot} (hs : b.isFree slot = true) {f : Task → Task}
    {free : BitVec 32} {idx : BitVec 16} {k : Program State} (g : Task → Task)
    (rest : Steady interrupt (Orbit b) (edit slot (g ∘ f) free idx) k) :
    Steady interrupt (Orbit b) (edit slot f free idx) (.write (setField slot g) k) :=
  .act (commutes_edit hs f free idx) (fun _ _ => ⟨setField_edit g, rfl⟩) rest

theorem steady_read {b : State} {slot : Slot} (hs : b.isFree slot = true) {f : Task → Task}
    {free : BitVec 32} {idx : BitVec 16} {k : State → Program State}
    (hk : ∀ s, k (edit slot f free idx s) = k (edit slot f free idx b))
    (rest : Steady interrupt (Orbit b) (edit slot f free idx) (k (edit slot f free idx b))) :
    Steady interrupt (Orbit b) (edit slot f free idx) (.read k) :=
  .act (commutes_edit hs f free idx) (fun s _ => ⟨rfl, hk s⟩) rest

/-- `timeout_idx_ += 2`. -/
theorem steady_timeoutIdx {b : State} {slot : Slot} (hs : b.isFree slot = true) {f : Task → Task}
    {free : BitVec 32} {idx : BitVec 16} {k : Program State}
    (rest : Steady interrupt (Orbit b) (edit slot f free (idx + 2#16)) k) :
    Steady interrupt (Orbit b) (edit slot f free idx)
      (.write (fun s => { s with timeoutIdx := s.timeoutIdx + 2#16 }) k) :=
  .act (commutes_edit hs f free idx) (fun _ _ => ⟨rfl, rfl⟩) rest

/-- A slot is allocated, the same one in every state of the orbit. -/
theorem steady_allocate {b : State} {k : Slot → Program State}
    (rest : ∀ slot, b.isFree slot = true → Steady interrupt (Orbit b)
      (edit slot id (allocateSlot b).2.freeBitmap b.timeoutIdx) (k slot)) :
    Steady interrupt (Orbit b) id (.act (fun s => (allocateSlot s).2) fun s =>
      match (allocateSlot s).1 with
      | none => .ret
      | some slot => k slot) := by
  have hsame : ∀ s, Orbit b s → (allocateSlot s).1 = (allocateSlot b).1 ∧
      (allocateSlot s).2 = { s with freeBitmap := (allocateSlot b).2.freeBitmap } := by
    intro s h
    rw [allocateSlot, allocateSlot, h.free]
    split
    next => exact ⟨rfl, rfl⟩
    next => exact ⟨rfl, by rw [← h.free]⟩
  rcases hA : allocateSlot b with ⟨_ | slot, b'⟩
  · refine .act (p := .ret) (commutes_id b) (fun s h => ?_) (.ret (commutes_id b))
    obtain ⟨h1, h2⟩ := hsame s h
    rw [hA] at h1 h2
    refine ⟨?_, by rw [id, h1]⟩
    have hnone := (allocateSlot_none hA).2
    rw [id, h2, hnone, ← h.free]
  · have hfree := (allocateSlot_some hA).1
    rw [hA] at rest
    refine .act (commutes_id b) (fun s h => ?_) (rest slot hfree)
    obtain ⟨h1, h2⟩ := hsame s h
    rw [hA] at h1 h2
    refine ⟨?_, by rw [id, h1]⟩
    have hself : setField slot id s = s := by
      rw [setField, State.setTask, id, Function.update_eq_self]
    rw [id, h2, edit, hself, ← h.timeoutIdx]

theorem steady_program (b : State) (c : Call) :
    Steady interrupt (Orbit b) id (program c) := by
  have refused : Steady interrupt (Orbit b) id .ret := .ret (commutes_id b)
  have unread : ∀ {k : State → Program State} {p : Program State},
      (∀ s, Orbit b s → k s = p) → Steady interrupt (Orbit b) id p →
        Steady interrupt (Orbit b) id (.read k) :=
    fun h hp => .act (commutes_id b) (fun s hs => ⟨rfl, h s hs⟩) hp
  cases c with
  | registerTask p f =>
    cases f with
    | none => exact refused
    | some f =>
      show Steady _ _ _ (registerProgram p (some f))
      rw [registerProgram]
      generalize (if p = 0#32 then 1#32 else p) = period
      split
      next => exact refused
      next =>
        exact steady_allocate fun slot hs => steady_field hs _ <| steady_field hs _ <|
          steady_field hs _ <| steady_field hs _ <| steady_arm hs _ _ _ period
  | setTimeout p f =>
    cases f with
    | none => exact refused
    | some f =>
      show Steady _ _ _ (timeoutProgram p (some f))
      rw [timeoutProgram]
      generalize (if p = 0#32 then 1#32 else p) = period
      split
      next => exact refused
      next =>
        exact steady_allocate fun slot hs => steady_field hs _ <| steady_field hs _ <|
          steady_field hs _ <| steady_read hs (fun _ => rfl) <| steady_field hs _ <|
          steady_timeoutIdx hs <| steady_arm hs _ _ _ period
  | unregisterTask id =>
    show Steady _ _ _ (unregisterProgram id)
    rw [unregisterProgram]
    split
    next h =>
      refine unread (fun s hs => by rw [hs.free]) ?_
      split
      next => exact refused
      next => exact steady_drop b _
    next => exact refused
  | cancelTimeout id =>
    refine unread (fun s hs => by rw [hs.repeating]) ?_
    split
    next => exact refused
    next =>
      refine unread (fun s hs => by rw [hs.id]) ?_
      split
      next => exact refused
      next =>
        refine unread (fun s hs => by rw [hs.free]) ?_
        split
        next => exact refused
        next => exact steady_drop b _

/-! ## Runs -/

/-- An operation without interrupts, or a call with the interrupts it takes on its way. -/
inductive Act
  | op (l : Label)
  | call (cnt : BitVec 32) (c : Call) (es : List Turn)

/-- The call `c`, made where the counter holds `cnt`, returns in `t`. -/
def Interrupted (ok : Config State → Turn → Prop) (s : State) (cnt : BitVec 32) (c : Call)
    (es : List Turn) (t : State) : Prop :=
  ∃ last, Run (Base.Interrupts.Step interrupt) ok ⟨program c, s.atCount cnt, true, 0⟩ es last ∧
    last.program = .ret ∧ last.state = t

def ActStep (ok : Config State → Turn → Prop) (s : State) : Act → State → Prop
  | .op l, t => Model.Step s l t
  | .call cnt c es, t => Interrupted ok s cnt c es t

/-- With `i` interrupts before the call and `j` after it. -/
def Serially (s : State) (cnt : BitVec 32) (c : Call) (i j : Nat) (t : State) : Prop :=
  ∃ u, iterate interrupt i (s.atCount cnt) = some u ∧ iterate interrupt j (c.run u) = some t

/-- No call removes slot 0 while it holds a fired timeout, whichever interrupts come first. -/
def SafeAct (s : State) : Act → Prop
  | .op l => Safe s l
  | .call cnt c es => ∀ i ≤ es.count .interrupt, ∀ u,
      iterate interrupt i (s.atCount cnt) = some u → RemoveSafe u c

theorem orbit_refl {s : State} {q : List Slot} (h : Consistent s q) : Orbit s s :=
  ⟨⟨q, h⟩, rfl, rfl, fun _ => rfl, fun _ => rfl⟩

theorem iterate_consistent : ∀ {n : Nat} {s t : State} {q : List Slot}, Consistent s q →
    iterate interrupt n s = some t → ∃ q', Consistent t q'
  | 0, _, _, q, h, ht => ⟨q, Option.some.inj ht ▸ h⟩
  | _ + 1, _, _, _, h, ht => by
    obtain ⟨u, hu, ht⟩ := Option.bind_eq_some_iff.mp ht
    obtain ⟨q', hq'⟩ := iterate_consistent h hu
    exact ((orbit_refl hq').interrupt ht).queue

theorem serially_of_consistent {s t : State} {q : List Slot} (h : Consistent s q)
    {cnt : BitVec 32} {c : Call} {es : List Turn} (hc : Interrupted Outside s cnt c es t) :
    ∃ i j, i + j = es.count .interrupt ∧ Serially s cnt c i j t := by
  obtain ⟨last, r, hret, rfl⟩ := hc
  obtain ⟨i, j, u, hij, hu, ht⟩ := run_serial (fun _ _ hO ht => hO.interrupt ht)
    (orbit_refl (h.atCount cnt)) (steady_program _ c) r hret
  rw [program_run] at ht
  exact ⟨i, j, hij, u, hu, ht⟩

theorem act_consistent {s t : State} {q : List Slot} (h : Consistent s q) {a : Act}
    (ha : SafeAct s a) (hs : ActStep Outside s a t) : ∃ q', Consistent t q' := by
  cases a with
  | op l => exact safe_step_consistent h ha hs
  | call cnt c es =>
    obtain ⟨i, j, hij, u, hu, ht⟩ := serially_of_consistent h hs
    obtain ⟨q', hq'⟩ := iterate_consistent (h.atCount cnt) hu
    obtain ⟨q'', hq'', -⟩ := hq'.call (ha i (by omega) u hu)
    exact iterate_consistent hq'' ht

def Program.returned : Program State → Bool
  | .ret => true
  | _ => false

theorem eq_ret {p : Program State} (h : Program.returned p = true) : p = .ret := by
  cases p with
  | ret => rfl
  | _ => cases h

/-- `unregister_task(0)` where the counter is 0. -/
def unregistering (s : State) : Config State :=
  ⟨program (.unregisterTask 0#16), s.atCount 0#32, true, 0⟩

/-- An execution that returns is a call. -/
theorem interrupted_of_exec (ok : Config State → Turn → Prop) (s : State) (es : List Turn)
    (P : State → Bool) (hok : ∀ c, ∀ e ∈ es, ok c e)
    (h : (exec (next interrupt) (unregistering s) es).map
      (fun c => Program.returned c.program && P c.state) = some true) :
    ∃ t, Interrupted ok s 0#32 (.unregisterTask 0#16) es t ∧ P t = true := by
  obtain ⟨last, hlast, hret⟩ := Option.map_eq_some_iff.mp h
  obtain ⟨hret, hP⟩ := Bool.and_eq_true_iff.mp hret
  exact ⟨last.state, ⟨last, run_of_exec hok hlast, eq_ret hret, rfl⟩, hP⟩

/-- A task every 10 µs and a timeout in 25 µs. -/
def withTimeout : State := (Call.setTimeout 25#32 (some 1)).run (registered.atCount 0#32)

end StLib.Scheduler.Serializability
