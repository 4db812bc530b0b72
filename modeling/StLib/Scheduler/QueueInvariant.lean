import StLib.Scheduler.Dispatching

/-! # The queue invariant over whole runs

Any sequence of calls, timer interrupts and updates whose callbacks leave the
scheduler alone keeps the packed queue well formed and in agreement with the
bitmaps, and removing a task leaves the others as they were (`queue_invariant`).
The one exception is cancelling the timeout of slot 0 between its interrupt and
the next `update`: it takes a padding nibble for the slot, and the queue loses
its last task or its count wraps (`unsafe_remove_breaks`). -/
namespace StLib.Scheduler.QueueInvariant

open StLib.Base.Runs StLib.Base.NibbleWord
open StLib.Scheduler.Model StLib.Scheduler.Queue StLib.Scheduler.Steps StLib.Scheduler.Invariant
open StLib.Scheduler.Dispatching

/-- The queued slots, front first: the first `active_task_count_` nibbles. -/
def queue (s : State) : List Slot :=
  (List.range s.activeTaskCount.toNat).map fun i => getAt s (BitVec.ofNat 8 i)

/-- What the scheduler's static data satisfies between operations. -/
structure WellFormed (s : State) : Prop where
  count_le : s.activeTaskCount.toNat ≤ 16
  distinct : (queue s).Nodup
  padding : ∀ i, s.activeTaskCount.toNat ≤ i → i < 16 → getAt s (BitVec.ofNat 8 i) = 0
  notFree : ∀ i ∈ queue s, s.isFree i = false
  queued : ∀ i, i ∈ queue s ↔ s.isFree i = false ∧ firedTimeout s i = false

/-- No callback of an update calls the scheduler. -/
def Quiet : Op → Prop
  | .update scripts => ∀ n, scripts n = []
  | _ => True

/-- The operation is quiet, and a call is safe in the state it finds. -/
def Allowed (s : State) (l : Label) : Prop :=
  Quiet l.2 ∧ ∀ c, l.2 = .call c → RemoveSafe (s.atCount l.1) c

theorem queue_eq {s : State} {q : List Slot} (h : Holds s q) : queue s = q := by
  apply List.ext_getElem
  · simp [queue, h.toNat]
  · intro i h1 h2
    simp only [queue, List.getElem_map, List.getElem_range]
    exact h.getAt h2

theorem wellFormed_of_consistent {s : State} {q : List Slot} (h : Consistent s q) :
    WellFormed s := by
  have hq := queue_eq h.holds
  refine ⟨?_, hq ▸ h.nodup, fun i h1 h2 => ?_, fun i hi => ?_, fun i => ?_⟩
  · rw [h.holds.toNat]; exact h.holds.length_le
  · rw [getAt_ofNat s h2, h.holds.packs.high (by rwa [h.holds.toNat] at h1)]
  · exact ((h.queued i).mp (hq ▸ hi)).1
  · rw [hq]; exact h.queued i

/-! ## Steps -/

/-- An update whose callbacks call nothing keeps the queue, the tasks and the time. -/
theorem quietUpdate_keeps {s : State} {q : List Slot} (h : Consistent s q)
    {scripts : Nat → Script} (quiet : ∀ n, scripts n = []) :
    ∃ r, update scripts s = some r ∧ Consistent r.1 q ∧ r.1.tasks = s.tasks ∧
      r.1.globalTickUs = s.globalTickUs ∧ r.1.currentIntervalUs = s.currentIntervalUs := by
  obtain ⟨r, hr⟩ := update_total h.readySlots scripts
  refine ⟨r, hr, ?_⟩
  rw [update_eq] at hr
  have h' : Consistent { s with failingId := invalidId } q := h.congr rfl rfl rfl rfl rfl
  refine (dispatchReady_rule (P := fun t _ => Consistent t q ∧ t.tasks = s.tasks ∧
    t.globalTickUs = s.globalTickUs ∧ t.currentIntervalUs = s.currentIntervalUs)
    (G := fun _ => True) ?_ ⟨h', rfl, rfl, rfl⟩ hr (l := []) fun _ _ => trivial).1
  rintro l d ⟨hc, htasks, htick, hint⟩ hready ⟨n, hn⟩ -
  rw [Dispatch.after, Dispatch.returned, hn, quiet n]
  exact ⟨consistent_finish hc fun _ => .inr hready, by simpa [runScript] using htasks,
    by simpa [runScript] using htick, by simpa [runScript] using hint⟩

/-- Every allowed step ends in agreement again. -/
theorem step_consistent {s : State} {q : List Slot} (h : Consistent s q) {l : Label}
    (hl : Allowed s l) : ∃ s', Step s l s' ∧ ∃ q', Consistent s' q' := by
  obtain ⟨cnt, op⟩ := l
  have h' := h.atCount cnt
  cases op with
  | call c =>
    obtain ⟨q', hq', -⟩ := h'.call (hl.2 c rfl)
    exact ⟨_, rfl, q', hq'⟩
  | timerInterrupt =>
    obtain ⟨r, hr, hq'⟩ := h'.onTimerUpdate
    exact ⟨r.1, by simp [Step, Op.run, hr], hq'⟩
  | update scripts =>
    obtain ⟨r, hr, hq', -⟩ := quietUpdate_keeps h' hl.1
    exact ⟨r.1, by simp [Step, Op.run, hr], q, hq'⟩

theorem step_deterministic {s t u : State} {l : Label} (ht : Step s l t) (hu : Step s l u) :
    t = u :=
  Option.some.inj (ht.symm.trans hu)

/-- Every state of an allowed run is in agreement. -/
theorem run_consistent {ls : List Label} {s : State} (r : Run Step Allowed initial ls s) :
    ∃ q, Consistent s q := by
  refine r.invariant (P := fun s => ∃ q, Consistent s q) ⟨[], .initial⟩ ?_
  rintro t l u ⟨q, hq⟩ hok hs
  obtain ⟨u', hu', hq'⟩ := step_consistent hq hok
  exact step_deterministic hu' hs ▸ hq'

/-! ## Main results -/

/-- **The queue invariant**: every state of an allowed run is well formed, a safe
removal takes its slot out of the queue and nothing else, and the next quiet
operation returns. -/
theorem queue_invariant {ls : List Label} {s : State} (r : Run Step Allowed initial ls s) :
    WellFormed s ∧
    (∀ cnt c slot, RemoveSafe (s.atCount cnt) c → c.removes (s.atCount cnt) = some slot →
      queue (c.run (s.atCount cnt)) = (queue s).erase slot) ∧
    ∀ l, Allowed s l → ∃ s', Step s l s' := by
  obtain ⟨q, hq⟩ := run_consistent r
  refine ⟨wellFormed_of_consistent hq, fun cnt c slot safe hrem => ?_, fun l hl => ?_⟩
  · obtain ⟨q', hq', hremoved, -⟩ := (hq.atCount cnt).call safe
    rw [queue_eq hq'.holds, queue_eq hq.holds, hremoved slot hrem]
  · obtain ⟨s', hs, -⟩ := step_consistent hq hl
    exact ⟨s', hs⟩

/-- A timeout fires, and the queue it leaves empty is well formed. -/
theorem queue_invariant_timeout :
    ∃ s, exec (fun s (l : Label) => l.2.run (s.atCount l.1)) initial
        [(0#32, .call (.setTimeout 5#32 (some 0))), (0#32, .timerInterrupt)] = some s ∧
      s.activeTaskCount = 0#32 ∧ WellFormed s := by
  have hrun : (exec (fun s (l : Label) => l.2.run (s.atCount l.1)) initial
      [(0#32, .call (.setTimeout 5#32 (some 0))), (0#32, .timerInterrupt)]).map
        State.activeTaskCount = some 0#32 := by decide +kernel
  obtain ⟨s, hs, hcount⟩ := Option.map_eq_some_iff.mp hrun
  refine ⟨s, hs, hcount, (queue_invariant (run_of_exec (fun t a ha => ?_) hs)).1⟩
  rcases List.mem_cons.mp ha with rfl | ha
  · refine ⟨trivial, fun c hc => ?_⟩
    cases hc
    simp [RemoveSafe, Call.removes]
  · cases List.mem_singleton.mp ha
    refine ⟨trivial, fun c hc => ?_⟩
    cases hc

/-- **Cancelling a fired timeout of slot 0 wraps the count**: the invariant fails
on a run without its guard. -/
theorem cancel_fired_slot_zero :
    ¬ ∀ ls s, Run Step (fun _ l => Quiet l.2) initial ls s → WellFormed s := by
  intro h
  have hrun : (exec (fun s (l : Label) => l.2.run (s.atCount l.1)) initial
      [(0#32, .call (.setTimeout 1#32 (some 0))), (0#32, .timerInterrupt),
        (0#32, .call (.cancelTimeout 16#16))]).map State.activeTaskCount =
      some 0xFFFFFFFF#32 := by decide +kernel
  obtain ⟨s, hs, hcount⟩ := Option.map_eq_some_iff.mp hrun
  have hquiet : ∀ t : State, ∀ l ∈ ([(0#32, .call (.setTimeout 1#32 (some 0))),
      (0#32, .timerInterrupt), (0#32, .call (.cancelTimeout 16#16))] : List Label),
      (fun _ (l : Label) => Quiet l.2) t l := by
    simp [Quiet]
  have := (h _ s (run_of_exec hquiet hs)).count_le
  rw [hcount] at this
  exact absurd this (by decide)

/-- **A call outside the guard breaks the invariant**: a queued task is lost, or
the count of an empty queue wraps. -/
theorem unsafe_remove_breaks {s : State} {q : List Slot} (h : Consistent s q) {c : Call}
    (hc : ¬ RemoveSafe s c) : ¬ WellFormed (c.run s) := by
  intro hw
  simp only [RemoveSafe, Classical.not_imp, Bool.not_eq_false] at hc
  obtain ⟨hrem, hfired⟩ := hc
  have h0 : (0 : Slot) ∉ q := fun hm => by
    rw [((h.queued 0).mp hm).2] at hfired
    cases hfired
  have hlen := h.length_lt h0
  rcases Call.run_cases c s with ⟨-, hn, -⟩ | ⟨_, _, _, _, _, _, hn, -⟩ | ⟨slot, hf, hrem', -, hrun⟩
  · rw [hn] at hrem; cases hrem
  · rw [hn] at hrem; cases hrem
  rw [hrem, Option.some.injEq] at hrem'
  subst hrem'
  rw [hrun] at hw
  -- the queued slots are still those of `q`, but the count is one less
  have hsame : ∀ i, i ∈ queue (dropTask s 0) ↔ i ∈ q := by
    intro i
    rw [hw.queued i, h.queued i]
    simp only [firedTimeout, dropTask_isFree, dropTask_isReady, dropTask_tasks]
    by_cases hi : i = 0
    · subst hi
      simpa [firedTimeout] using fun _ => hfired
    · simp [hi]
  have hperm : (queue (dropTask s 0)).Perm q :=
    (List.perm_ext_iff_of_nodup hw.distinct h.nodup).mpr hsame
  have hcount : (dropTask s 0).activeTaskCount = s.activeTaskCount - 1#32 := by
    rw [← removeSorted_padding h.holds hlen]
    simp [dropTask, releaseSlot]
  have hl : (s.activeTaskCount - 1#32).toNat = q.length := by
    rw [← hperm.length_eq, ← hcount]
    simp [queue]
  rw [BitVec.toNat_sub, h.holds.toNat] at hl
  simp at hl
  omega

end StLib.Scheduler.QueueInvariant
