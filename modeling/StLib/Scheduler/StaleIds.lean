import StLib.Scheduler.QueueInvariant
import StLib.Scheduler.Timeouts

/-! # Ids of timeouts

A timeout's id is its slot and the value of `timeout_idx_`, an odd number that grows
by two with every timeout set and comes back after 2048 of them. So an id no
`unregister_task` takes, and once its timeout has been run or cancelled no
`cancel_timeout` either, until the counter has come back (`stale_ids`). -/
namespace StLib.Scheduler.StaleIds

open StLib.Base.Runs
open StLib.Scheduler.Model StLib.Scheduler.Steps StLib.Scheduler.Invariant
open StLib.Scheduler.Dispatching StLib.Scheduler.QueueInvariant StLib.Scheduler.Timeouts

/-- The id `set_timeout` makes of a slot and `timeout_idx_`. -/
def timeoutId (slot : Slot) (idx : BitVec 16) : BitVec 16 :=
  BitVec.ofNat 16 slot.val + idx * BitVec.ofNat 16 kMaxTasks

/-- The call is a `set_timeout` that takes a slot. -/
def takesSlot : Call → State → Bool
  | .setTimeout us f, s => ((Call.setTimeout us f).adds s).isSome
  | _, _ => false

/-- The operation is such a call. -/
def setsTimeout (s : State) : Label → Bool
  | (cnt, .call c) => takesSlot c (s.atCount cnt)
  | _ => false

/-- A step, with the number of timeouts set so far. -/
def CountedStep (w : State × Nat) (l : Label) (w' : State × Nat) : Prop :=
  Step w.1 l w'.1 ∧ w'.2 = w.2 + if setsTimeout w.1 l then 1 else 0

theorem countedStep {s t : State} {l : Label} {n : Nat} (hs : Step s l t) :
    CountedStep (s, n) l (t, n + if setsTimeout s l then 1 else 0) :=
  ⟨hs, rfl⟩

/-- The operation cancels the timeout with the id, or runs it. -/
def Ends (x : BitVec 16) (s : State) : Label → Prop
  | (cnt, .call (.cancelTimeout id)) => id = x ∧ (cancelTimeout id (s.atCount cnt)).1 = true
  | (cnt, .update scripts) => ∃ r, update scripts (s.atCount cnt) = some r ∧ ∃ d ∈ r.2,
      d.slot = slotOfId x ∧ (d.before.tasks d.slot).repeating = false ∧
        (d.before.tasks d.slot).id = x
  | _ => False

/-! ## Ids -/

theorem timeoutId_toNat (slot : Slot) (idx : BitVec 16) :
    (timeoutId slot idx).toNat = (slot.val + idx.toNat * 16) % 65536 := by
  have hslot := slot.isLt
  rw [timeoutId, BitVec.toNat_add, BitVec.toNat_mul, BitVec.toNat_ofNat, BitVec.toNat_ofNat]
  simp only [kMaxTasks]
  omega

/-- An odd counter makes no id of a slot, and not the invalid one. -/
theorem timeoutId_of_odd {slot : Slot} {idx : BitVec 16} (h : idx.toNat % 2 = 1) :
    kMaxTasks ≤ (timeoutId slot idx).toNat ∧ timeoutId slot idx ≠ invalidId := by
  have hid := timeoutId_toNat slot idx
  have hslot := slot.isLt
  refine ⟨by rw [hid]; simp only [kMaxTasks]; omega, fun he => ?_⟩
  rw [he, show invalidId.toNat = 32 by decide] at hid
  omega

/-- The next 2047 ids of a slot are other ids. -/
theorem timeoutId_ne {slot : Slot} {idx idx' : BitVec 16} {n : Nat}
    (hidx : idx' = idx + BitVec.ofNat 16 (2 * n)) (h0 : 0 < n) (hn : n < 2048) :
    timeoutId slot idx' ≠ timeoutId slot idx := by
  intro he
  have hid := congrArg BitVec.toNat he
  rw [timeoutId_toNat, timeoutId_toNat, hidx, BitVec.toNat_add, BitVec.toNat_ofNat] at hid
  have := slot.isLt
  omega

theorem unregisterTask_of_ge {id : BitVec 16} (h : kMaxTasks ≤ id.toNat) (s : State) :
    unregisterTask id s = (false, s) := by
  rw [unregisterTask, dif_neg (by omega)]

/-! ## What a step does -/

theorem armTask_timeoutIdx (s : State) (slot : Slot) (task : Task) (idx : BitVec 16) :
    (armTask (claimSlot s slot task idx) slot task.periodUs).timeoutIdx = idx := by
  rw [armTask_claimSlot, scheduleNextInterval_timeoutIdx]
  rfl

theorem onTimerUpdate_timeoutIdx {s : State} {r : State × List Slot}
    (h : onTimerUpdate s = some r) : r.1.timeoutIdx = s.timeoutIdx := by
  obtain ⟨p, hp, rfl⟩ := Option.map_eq_some_iff.mp h
  have hfold : p.1.timeoutIdx = s.timeoutIdx := by
    refine (popDue_rule (P := fun t _ => t.timeoutIdx = s.timeoutIdx) ?_ ?_ hp (l := [])).1
    · exact fun t _ ht _ _ => (fireHead_timeoutIdx t).trans ht
    · rfl
  exact (scheduleNextInterval_timeoutIdx p.1).trans hfold

theorem finishDispatch_timeoutIdx (s : State) (slot : Slot) :
    (finishDispatch s slot).timeoutIdx = s.timeoutIdx := by
  unfold finishDispatch
  dsimp only
  split <;> rfl

/-- What holds before an update that calls nothing, and is kept by ending the
dispatch of a ready slot, holds after it. -/
theorem quietUpdate_rule {P : State → List Dispatch → Prop} {s : State} {scripts : Nat → Script}
    {r : State × List Dispatch} (quiet : ∀ n, scripts n = [])
    (hstep : ∀ t l d, P t l → d.before = t → P (finishDispatch t d.slot) (l ++ [d]))
    (h0 : P { s with failingId := invalidId } []) (h : update scripts s = some r) : P r.1 r.2 := by
  rw [update_eq] at h
  refine (dispatchReady_rule (P := P) (G := fun _ => True) ?_ h0 h (l := []) fun _ _ => trivial).1
  rintro l d hP - ⟨n, hn⟩ -
  have := hstep d.before l d hP rfl
  rwa [Dispatch.after, Dispatch.returned, hn, quiet n]

/-- What `set_timeout` does, with the id it returns. -/
theorem setTimeout_takes (us : BitVec 32) (f : Option Callback) (s : State) :
    (takesSlot (.setTimeout us f) s = false ∧ setTimeout us f s = (invalidId, s)) ∨
    (takesSlot (.setTimeout us f) s = true ∧ ∃ slot task, task.repeating = false ∧
      task.id = timeoutId slot s.timeoutIdx ∧ setTimeout us f s =
        (task.id, armTask (claimSlot s slot task (s.timeoutIdx + 2#16)) slot task.periodUs)) := by
  rcases setTimeout_cases us f s with h | ⟨slot, task, ha, hf, hr, -, -, -, -, hid, h⟩
  · have hrun : (Call.setTimeout us f).run s = s := congrArg Prod.snd h
    have hadds : (Call.setTimeout us f).adds s = none := adds_eq_none fun i hi => by rw [hrun, hi]
    exact .inl ⟨by rw [takesSlot, hadds]; rfl, h⟩
  · have hrun : (Call.setTimeout us f).run s = _ := congrArg Prod.snd h
    have hadds : (Call.setTimeout us f).adds s = some slot := adds_eq_some ha (by
      rw [hrun, armTask_isFree, claimSlot_isFree]
      simp)
    exact .inr ⟨by rw [takesSlot, hadds]; rfl, slot, task, hr, hid, h⟩

/-- A call adds two to the counter when it takes a slot for a timeout. -/
theorem call_timeoutIdx (c : Call) (s : State) :
    (c.run s).timeoutIdx = s.timeoutIdx + if takesSlot c s then 2#16 else 0#16 := by
  cases c with
  | registerTask p f =>
    have hsame : (registerTask p f s).2.timeoutIdx = s.timeoutIdx := by
      rcases registerTask_cases p f s with h | ⟨slot, task, -, -, -, -, -, -, -, -, h⟩
      · rw [h]
      · rw [h, armTask_timeoutIdx]
    rw [Call.run, hsame]
    exact (BitVec.add_zero _).symm
  | setTimeout us f =>
    rcases setTimeout_takes us f s with ⟨hno, h⟩ | ⟨hyes, slot, task, -, -, h⟩
    · rw [Call.run, h, hno]
      exact (BitVec.add_zero _).symm
    · rw [Call.run, h, hyes, armTask_timeoutIdx]
      rfl
  | unregisterTask id =>
    have hsame : (unregisterTask id s).2.timeoutIdx = s.timeoutIdx := by
      rcases unregisterTask_cases id s with h | ⟨_, -, h⟩
      · rw [h]
      · rw [h, dropTask_timeoutIdx]
    rw [Call.run, hsame]
    exact (BitVec.add_zero _).symm
  | cancelTimeout id =>
    have hsame : (cancelTimeout id s).2.timeoutIdx = s.timeoutIdx := by
      rcases cancelTimeout_cases id s with h | ⟨-, -, -, h⟩
      · rw [h]
      · rw [h, dropTask_timeoutIdx]
    rw [Call.run, hsame]
    exact (BitVec.add_zero _).symm

/-- The counter goes up by two with every timeout set. -/
theorem step_timeoutIdx {s t : State} {l : Label} (quiet : Quiet l.2) (hs : Step s l t) :
    t.timeoutIdx = s.timeoutIdx + if setsTimeout s l then 2#16 else 0#16 := by
  obtain ⟨cnt, op⟩ := l
  cases op with
  | call c =>
    obtain rfl := Option.some.inj hs
    exact call_timeoutIdx c (s.atCount cnt)
  | timerInterrupt =>
    obtain ⟨r, hr, rfl⟩ := Option.map_eq_some_iff.mp hs
    rw [onTimerUpdate_timeoutIdx hr]
    exact (BitVec.add_zero _).symm
  | update scripts =>
    obtain ⟨r, hr, rfl⟩ := Option.map_eq_some_iff.mp hs
    have hkept : r.1.timeoutIdx = (s.atCount cnt).timeoutIdx := by
      refine quietUpdate_rule (s := s.atCount cnt)
        (P := fun t _ => t.timeoutIdx = (s.atCount cnt).timeoutIdx) quiet (fun t l d ht _ => ?_)
        rfl hr
      exact (finishDispatch_timeoutIdx t d.slot).trans ht
    rw [hkept]
    exact (BitVec.add_zero _).symm

/-- What a step leaves in a slot: what was there, nothing, a repeating task, or the
timeout it sets. -/
theorem step_held {s t : State} {l : Label} (quiet : Quiet l.2) (hs : Step s l t) (i : Slot) :
    held t i = held s i ∨ held t i = none ∨ (∃ f id, held t i = some ⟨f, true, id⟩) ∨
      setsTimeout s l = true ∧ ∃ f, held t i = some ⟨f, false, timeoutId i s.timeoutIdx⟩ := by
  obtain ⟨cnt, op⟩ := l
  cases op with
  | call c =>
    obtain rfl := Option.some.inj hs
    cases c with
    | registerTask p f =>
      rcases held_registerTask p f (s.atCount cnt) i with h | ⟨id, h⟩
      · exact .inl h
      · exact .inr (.inr (.inl ⟨f, id, h⟩))
    | setTimeout us f =>
      rcases setTimeout_takes us f (s.atCount cnt) with ⟨-, h⟩ | ⟨hyes, slot, task, hr, hid, h⟩
      · refine .inl ?_
        show held (setTimeout us f (s.atCount cnt)).2 i = _
        rw [h]
        rfl
      · show held (setTimeout us f (s.atCount cnt)).2 i = _ ∨ held (setTimeout us f _).2 i = _ ∨
          (∃ f' id, held (setTimeout us f _).2 i = _) ∨ _ ∧ ∃ f', held (setTimeout us f _).2 i = _
        rw [h, held_armTask]
        by_cases hi : i = slot
        · subst hi
          refine .inr (.inr (.inr ⟨hyes, task.callback, ?_⟩))
          rw [Function.update_self, Entry.ofTask, hr, hid]
          rfl
        · rw [Function.update_of_ne hi]
          exact .inl rfl
    | unregisterTask id =>
      rcases held_unregisterTask id (s.atCount cnt) i with h | h
      · exact .inr (.inl h)
      · exact .inl h
    | cancelTimeout id =>
      rcases (held_cancelTimeout id (s.atCount cnt) i).1 with h | h
      · exact .inr (.inl h)
      · exact .inl h
  | timerInterrupt =>
    obtain ⟨r, hr, rfl⟩ := Option.map_eq_some_iff.mp hs
    exact .inl (congrFun (held_onTimerUpdate hr).1 i)
  | update scripts =>
    obtain ⟨r, hr, rfl⟩ := Option.map_eq_some_iff.mp hs
    have hkept : held r.1 i = held s i ∨ held r.1 i = none := by
      refine quietUpdate_rule (s := s.atCount cnt)
        (P := fun t _ => held t i = held s i ∨ held t i = none) quiet (fun t l d ht _ => ?_)
        (.inl rfl) hr
      rw [held_finishDispatch]
      split
      · exact .inr rfl
      · exact ht
    rcases hkept with h | h
    · exact .inl h
    · exact .inr (.inl h)

/-- A timeout that is run or cancelled leaves its slot. -/
theorem held_of_ends {s t : State} {l : Label} {x : BitVec 16} (quiet : Quiet l.2)
    (he : Ends x s l) (hs : Step s l t) : held t (slotOfId x) = none := by
  obtain ⟨cnt, op⟩ := l
  cases op with
  | call c =>
    cases c with
    | cancelTimeout id =>
      obtain ⟨rfl, htrue⟩ := he
      obtain rfl := Option.some.inj hs
      rcases cancelTimeout_cases id (s.atCount cnt) with h | ⟨-, -, -, h⟩
      · rw [h] at htrue
        cases htrue
      · rw [Call.run, h]
        show held (dropTask (s.atCount cnt) (slotOfId id)) (slotOfId id) = none
        rw [held_dropTask, Function.update_self]
    | _ => cases he
  | timerInterrupt => cases he
  | update scripts =>
    obtain ⟨r, hr, d, hd, hslot, hrep, -⟩ := he
    obtain rfl : r.1 = t := by
      rw [Step, Op.run, hr] at hs
      exact Option.some.inj hs
    refine quietUpdate_rule (P := fun t l => ∀ d ∈ l, d.slot = slotOfId x →
      (d.before.tasks d.slot).repeating = false → held t (slotOfId x) = none) quiet
      (fun t l d' hP hbefore d hd hslot hrep => ?_) (by simp) hr d hd hslot hrep
    rw [held_finishDispatch]
    rcases List.mem_append.mp hd with hd | hd
    · rw [hP d hd hslot hrep]
      exact ite_self none
    · obtain rfl := List.mem_singleton.mp hd
      rw [if_pos ⟨hslot.symm, hbefore ▸ hrep⟩]

/-! ## Runs -/

theorem timeoutIdx_odd {ls : List Label} {s : State}
    (r : Run Step (fun _ l => Quiet l.2) initial ls s) : s.timeoutIdx.toNat % 2 = 1 := by
  refine r.invariant (P := fun s => s.timeoutIdx.toNat % 2 = 1) (by decide) fun t l u ht hok hs => ?_
  rw [step_timeoutIdx hok hs, BitVec.toNat_add]
  split
  · have : (2#16).toNat = 2 := rfl
    omega
  · have : (0#16).toNat = 0 := rfl
    omega

theorem run_timeoutIdx {ls : List Label} {s : State} {w : State × Nat}
    (r : Run CountedStep (fun _ l => Quiet l.2) (s, 0) ls w) :
    w.1.timeoutIdx = s.timeoutIdx + BitVec.ofNat 16 (2 * w.2) := by
  refine r.invariant (P := fun w => w.1.timeoutIdx = s.timeoutIdx + BitVec.ofNat 16 (2 * w.2))
    (by simp) fun v l u hv hok hs => ?_
  rw [step_timeoutIdx hok hs.1, hs.2, hv, BitVec.add_assoc]
  congr 1
  split
  · rw [Nat.mul_add, BitVec.ofNat_add]
  · simp

/-- No slot holds the timeout with the id. -/
def Dead (x : BitVec 16) (s : State) : Prop := ∀ f, held s (slotOfId x) ≠ some ⟨f, false, x⟩

theorem cancelTimeout_of_dead {x : BitVec 16} {s : State} (h : Dead x s) :
    cancelTimeout x s = (false, s) := by
  rcases cancelTimeout_cases x s with hc | ⟨hf, hr, hid, -⟩
  · exact hc
  · refine absurd ?_ (h (s.tasks (slotOfId x)).callback)
    rw [held_of_taken hf, Entry.ofTask, hr, hid]

/-- A dead id stays dead while the counter has not come back. -/
theorem dead_step {slot : Slot} {idx : BitVec 16} {w w' : State × Nat} {l : Label}
    (hidx : w.1.timeoutIdx = idx + 2#16 + BitVec.ofNat 16 (2 * w.2))
    (h : Dead (timeoutId slot idx) w.1) (quiet : Quiet l.2) (hs : CountedStep w l w')
    (hlt : w'.2 < 2048) : Dead (timeoutId slot idx) w'.1 := by
  intro f hf
  rcases step_held quiet hs.1 (slotOfId (timeoutId slot idx)) with
    hsame | hnone | ⟨f', id, hrep⟩ | ⟨hset, f', hnew⟩
  · exact h f (hsame.symm.trans hf)
  · rw [hnone] at hf
    cases hf
  · rw [hrep] at hf
    cases hf
  · rw [hnew] at hf
    have hid := congrArg Entry.id (Option.some.inj hf)
    rw [show slotOfId (timeoutId slot idx) = slot from slotOfId_timeout slot idx] at hid
    have hcount := hs.2
    rw [hset, if_pos rfl] at hcount
    refine timeoutId_ne (n := w.2 + 1) ?_ (by omega) (by omega) hid
    rw [hidx, BitVec.add_assoc, Nat.mul_add, Nat.add_comm (2 * w.2), BitVec.ofNat_add]

theorem dead_run {slot : Slot} {idx : BitVec 16} {ls : List Label} {w w' : State × Nat}
    (hidx : w.1.timeoutIdx = idx + 2#16 + BitVec.ofNat 16 (2 * w.2))
    (h : Dead (timeoutId slot idx) w.1) (r : Run CountedStep (fun _ l => Quiet l.2) w ls w')
    (hlt : w'.2 < 2048) : Dead (timeoutId slot idx) w'.1 := by
  have hinv := r.invariant (P := fun v => v.1.timeoutIdx = idx + 2#16 + BitVec.ofNat 16 (2 * v.2) ∧
    (v.2 < 2048 → Dead (timeoutId slot idx) v.1)) ⟨hidx, fun _ => h⟩ fun v l u hv hok hs => ?_
  · exact hinv.2 hlt
  · refine ⟨?_, fun hu => ?_⟩
    · rw [step_timeoutIdx hok hs.1, hs.2, hv.1, BitVec.add_assoc (idx + 2#16)]
      congr 1
      split
      · rw [Nat.mul_add, BitVec.ofNat_add]
      · simp
    · have hle : v.2 ≤ u.2 := by
        rw [hs.2]
        exact Nat.le_add_right ..
      exact dead_step hv.1 (hv.2 (by omega)) hok hs hu

/-! ## Main result -/

/-- **Stale ids are harmless**: the id of a timeout is valid and no repeating task's,
and once the timeout has been run or cancelled, cancelling it does nothing as long as
fewer than 2048 timeouts have been set since. -/
theorem stale_ids {ls : List Label} {s : State}
    (r : Run Step (fun _ l => Quiet l.2) initial ls s) (cnt us : BitVec 32) (f : Option Callback)
    (hset : setsTimeout s (cnt, .call (.setTimeout us f)) = true) :
    let x := (setTimeout us f (s.atCount cnt)).1
    x ≠ invalidId ∧ (∀ t, unregisterTask x t = (false, t)) ∧
      ∀ {ms ns : List Label} {l : Label} {w u v : State × Nat},
        Run CountedStep (fun _ l => Quiet l.2) ((setTimeout us f (s.atCount cnt)).2, 0) ms w →
        Quiet l.2 → Ends x w.1 l → CountedStep w l u →
        Run CountedStep (fun _ l => Quiet l.2) u ns v → v.2 < 2048 →
        ∀ cnt, cancelTimeout x (v.1.atCount cnt) = (false, v.1.atCount cnt) := by
  intro x
  have hodd := timeoutIdx_odd r
  obtain ⟨slot, hx, hidx⟩ : ∃ slot, x = timeoutId slot s.timeoutIdx ∧
      (setTimeout us f (s.atCount cnt)).2.timeoutIdx = s.timeoutIdx + 2#16 := by
    rcases setTimeout_takes us f (s.atCount cnt) with ⟨hno, -⟩ | ⟨-, slot, task, -, hid, h⟩
    · exact absurd (hno.symm.trans hset) nofun
    · refine ⟨slot, ?_, ?_⟩
      · show (setTimeout us f (s.atCount cnt)).1 = _
        rw [h, hid]
        rfl
      · rw [h, armTask_timeoutIdx]
        rfl
  obtain ⟨hge, hne⟩ := @timeoutId_of_odd slot s.timeoutIdx hodd
  refine ⟨hx ▸ hne, fun t => unregisterTask_of_ge (hx ▸ hge) t, ?_⟩
  intro ms ns l w u v rbefore hquiet hends hstep rafter hlt cnt
  have hw := run_timeoutIdx rbefore
  simp only [hidx] at hw
  have hle : w.2 ≤ u.2 := by
    rw [hstep.2]
    exact Nat.le_add_right ..
  have hu : u.1.timeoutIdx = s.timeoutIdx + 2#16 + BitVec.ofNat 16 (2 * u.2) := by
    have := run_timeoutIdx (rbefore.snoc hquiet hstep)
    rwa [hidx] at this
  have hdead : Dead (timeoutId slot s.timeoutIdx) u.1 := by
    intro f' hf
    rw [← hx, held_of_ends hquiet hends hstep.1] at hf
    cases hf
  refine cancelTimeout_of_dead fun f' hf => ?_
  rw [held_atCount] at hf
  exact dead_run hu hdead rafter hlt f' (hx ▸ hf)

/-- The first timeout, in slot 0. -/
def timeoutSet : State := (setTimeout 5#32 (some 0) (initial.atCount 0#32)).2

def timeoutCancelled : State := (cancelTimeout 16#16 (timeoutSet.atCount 0#32)).2

/-- Another timeout has the slot. -/
def slotReused : State := (setTimeout 7#32 (some 1) (timeoutCancelled.atCount 0#32)).2

theorem cancel_step :
    CountedStep (timeoutSet, 0) (0#32, .call (.cancelTimeout 16#16)) (timeoutCancelled, 0) := by
  have hstep : Step timeoutSet (0#32, .call (.cancelTimeout 16#16)) timeoutCancelled :=
    congrArg some (Eq.refl (cancelTimeout 16#16 (timeoutSet.atCount 0#32)).2)
  exact countedStep hstep

theorem reuse_step :
    CountedStep (timeoutCancelled, 0) (0#32, .call (.setTimeout 7#32 (some 1)))
      (slotReused, 1) := by
  have hset : setsTimeout timeoutCancelled (0#32, .call (.setTimeout 7#32 (some 1))) = true := by
    decide +kernel
  have hstep : Step timeoutCancelled (0#32, .call (.setTimeout 7#32 (some 1))) slotReused :=
    congrArg some (Eq.refl (setTimeout 7#32 (some 1) (timeoutCancelled.atCount 0#32)).2)
  have hcounted := countedStep (n := 0) hstep
  rwa [hset, if_pos rfl] at hcounted

/-- The id of a cancelled timeout does not cancel the one that has its slot. -/
theorem stale_ids_reused :
    slotReused.isFree 0 = false ∧
      cancelTimeout 16#16 (slotReused.atCount 3#32) = (false, slotReused.atCount 3#32) := by
  have hid : (setTimeout 5#32 (some 0) (initial.atCount 0#32)).1 = 16#16 := by decide +kernel
  have hquiet : ∀ c, Quiet (Op.call c) := fun _ => trivial
  have hends : Ends 16#16 (timeoutSet, 0).1 (0#32, .call (.cancelTimeout 16#16)) :=
    ⟨rfl, by decide +kernel⟩
  obtain ⟨-, -, hstale⟩ := stale_ids (.nil initial) 0#32 5#32 (some 0) (by decide +kernel)
  rw [hid, ← timeoutSet] at hstale
  have hlate := @hstale [] _ _ (timeoutSet, 0) (timeoutCancelled, 0) (slotReused, 1) (.nil _)
    (hquiet _) hends cancel_step (Run.single (hquiet _) reuse_step) (by decide) 3#32
  dsimp only at hlate
  exact ⟨by decide +kernel, hlate⟩

end StLib.Scheduler.StaleIds
