import StLib.Scheduler.Reentrancy
import StLib.StateMachine.TimedActions

/-! # Registration of cyclic actions is atomic

When `register_all_timed_actions` fails, the actions registered before the failure are
unregistered one by one, the first first. What is left is the scheduler as it was, with
the queue in its order and every deadline in it, and no action on
(`registration_atomic`). -/
namespace StLib.StateMachine.Rollback

open StLib.Base.Runs StLib.Base.SortedQueue
open StLib.Scheduler.Model StLib.Scheduler.Queue StLib.Scheduler.Steps StLib.Scheduler.Invariant
open StLib.Scheduler.QueueInvariant StLib.Scheduler.Reentrancy StLib.StateMachine.TimedActions

/-- Every action is off and the scheduler is as it was: the queue, what the taken slots
hold, deadlines included, and the free slots. -/
structure RolledBack (s : State) (l : List TimedAction) (t : State) : Prop where
  off : ∀ a ∈ l, a.isOn = false
  queue : queue t = queue s
  tasks : ∀ i, s.isFree i = false → t.tasks i = s.tasks i
  free : ∀ i, t.isFree i = s.isFree i

/-- Unregistering takes the slots of the actions that are on out of the queue, and keeps
the order of the others. -/
theorem unregisterAll_queue : ∀ {l : List TimedAction} {s : State} {q : List Slot},
    Consistent s q → (∀ a ∈ l, a.isOn = true → Registered s a) → (slots l).Nodup →
    Consistent (unregisterAll l s).2 (q.filter fun i => decide (i ∉ slots l))
  | [], s, q, h, _, _ => by simpa [unregisterAll, slots] using h
  | a :: rest, s, q, h, hreg, hnd => by
    have hrest : ∀ b ∈ rest, b.isOn = true → Registered s b := fun b hb =>
      hreg b (List.mem_cons_of_mem _ hb)
    cases hon : a.isOn with
    | false =>
      rw [slots_cons_off hon] at hnd ⊢
      simp only [unregisterAll, unregisterOne_off hon]
      exact unregisterAll_queue h hrest hnd
    | true =>
      have ha := hreg a (by simp) hon
      rw [slots_cons_on hon] at hnd ⊢
      obtain ⟨hni, hnd⟩ := List.nodup_cons.mp hnd
      simp only [unregisterAll, unregisterOne_on ha hon]
      have hdrop : Consistent (dropTask s a.slot) (q.erase a.slot) := h.drop ha.taken fun h0 =>
        h0 ▸ firedTimeout_of_repeating ha.repeating
      have ih := unregisterAll_queue hdrop (fun b hb hbon => ?_) hnd
      · rw [h.nodup.erase_eq_filter, List.filter_filter] at ih
        convert ih using 2
        funext i
        by_cases hi : i = a.slot <;> simp [hi]
      · have hne : b.slot ≠ a.slot := fun he => hni (he ▸ mem_slots hb hbon)
        exact (hrest b hb hbon).congr (by simp [(hrest b hb hbon).taken, hne]) (by simp)

/-- Where the loop that started from `s` stands when the actions `done` are done: their
slots were free, and without them the queue is that of `s`. -/
structure Registering (s : State) (q : List Slot) (done : List TimedAction) (t : State)
    (qt : List Slot) : Prop where
  on : ∀ a ∈ done, a.isOn = true → Registered t a
  nodup : (slots done).Nodup
  fresh : ∀ i ∈ slots done, s.isFree i = true
  free : ∀ i, t.isFree i = (s.isFree i && !decide (i ∈ slots done))
  tasks : ∀ i, i ∉ slots done → t.tasks i = s.tasks i
  consistent : Consistent t qt
  queue : (qt.filter fun i => decide (i ∉ slots done)) = q

theorem slots_append (l m : List TimedAction) : slots (l ++ m) = slots l ++ slots m := by
  rw [slots, List.filter_append, List.map_append]
  rfl

section
variable {s t : State} {q qt : List Slot} {done : List TimedAction} {a : TimedAction}

/-- An action without a callback is passed over. -/
theorem Registering.skip (h : Registering s q done t qt) (hoff : a.isOn = false) :
    Registering s q (done ++ [a]) t qt := by
  have hslots : slots (done ++ [a]) = slots done := by
    rw [slots_append, slots_cons_off hoff]
    exact List.append_nil _
  refine ⟨fun b hb hon => ?_, hslots ▸ h.nodup, hslots ▸ h.fresh, hslots ▸ h.free,
    hslots ▸ h.tasks, h.consistent, hslots ▸ h.queue⟩
  rcases List.mem_append.mp hb with hb | hb
  · exact h.on b hb hon
  · rw [List.mem_singleton.mp hb, hoff] at hon
    cases hon

/-- A registered action takes one more slot and its place in the queue. -/
theorem Registering.register (h : Registering s q done t qt) {slot : Slot} {u : State}
    (hone : RegisteredOne t a slot u) :
    ∃ qu, Registering s q (done ++ [stored a slot]) u qu := by
  obtain ⟨pos, hpos, hu⟩ := hone.queue qt h.consistent
  have hslots : slots (done ++ [stored a slot]) = slots done ++ [slot] := by
    rw [slots_append, slots_cons_on rfl, stored_slot]
    rfl
  have hfresh := hone.fresh
  rw [h.free, Bool.and_eq_true] at hfresh
  obtain ⟨hfree, hni⟩ := hfresh
  have hni : slot ∉ slots done := by simpa using hni
  have hnq : slot ∉ qt := h.consistent.notQueued_of_free hone.fresh
  refine ⟨_, fun b hb hon => ?_, ?_, fun i hi => ?_, fun i => ?_, fun i hi => ?_, hu, ?_⟩
  · rcases List.mem_append.mp hb with hb | hb
    · have hb' := h.on b hb hon
      have hne : b.slot ≠ slot := fun he => hni (he ▸ mem_slots hb hon)
      exact hb'.congr (by simp [hone.free, hb'.taken]) (hone.tasks _ hne)
    · rw [List.mem_singleton.mp hb]
      exact hone.registered
  · rw [hslots, List.nodup_append]
    exact ⟨h.nodup, List.nodup_singleton _, fun i hi j hj => by
      rw [List.mem_singleton.mp hj]
      exact fun he => hni (he ▸ hi)⟩
  · rw [hslots] at hi
    rcases List.mem_append.mp hi with hi | hi
    · exact h.fresh i hi
    · rwa [List.mem_singleton.mp hi]
  · rw [hone.free, h.free, hslots]
    by_cases hi : i = slot <;> simp [hi]
  · rw [hslots, List.mem_append, List.mem_singleton, not_or] at hi
    rw [hone.tasks i hi.2, h.tasks i hi.1]
  · rw [hslots, filter_insertIdx hpos (by simp), ← h.queue]
    refine List.filter_congr fun i hi => ?_
    have hne : i ≠ slot := fun he => hnq (he ▸ hi)
    simp [hne]

/-- What is done is undone. -/
theorem Registering.undo (h : Registering s q done t qt) (hs : Consistent s q) :
    RolledBack s (unregisterAll done t).1 (unregisterAll done t).2 := by
  have hun := unregisterAll_spec h.on h.nodup
  have hq := unregisterAll_queue h.consistent h.on h.nodup
  rw [h.queue] at hq
  refine ⟨hun.off, (queue_eq hq.holds).trans (queue_eq hs.holds).symm, fun i hi => ?_, fun i => ?_⟩
  · rw [hun.tasks]
    refine h.tasks i fun hm => ?_
    rw [h.fresh i hm] at hi
    cases hi
  · rw [hun.free, h.free]
    by_cases hm : i ∈ slots done
    · simp [hm, h.fresh i hm]
    · simp [hm]

end

/-- A loop that fails is rolled back. -/
theorem registerLoop_fails {s : State} {q : List Slot} (hs : Consistent s q) :
    ∀ {l done : List TimedAction} {t : State} {qt : List Slot}, Registering s q done t qt →
      (∀ a ∈ l, a.isOn = false) → (registerLoop done l t).2.2 = false →
      RolledBack s (registerLoop done l t).1 (registerLoop done l t).2.1
  | [], done, t, qt, _, _, hfail => by
    rw [registerLoop] at hfail
    cases hfail
  | a :: rest, done, t, qt, h, hoff, hfail => by
    have hoff' : ∀ b ∈ rest, b.isOn = false := fun b hb => hoff b (List.mem_cons_of_mem _ hb)
    have ha : a.isOn = false := hoff a (by simp)
    rw [registerLoop] at hfail ⊢
    split at hfail
    next hnone =>
      rw [if_pos hnone]
      exact registerLoop_fails hs (h.skip ha) hoff' hfail
    next hsome =>
      rw [if_neg hsome]
      have hact : a.action.isSome = true := by
        rw [Option.isSome_iff_ne_none]
        exact fun hn => hsome (by rw [hn]; rfl)
      rcases registerTask_action hact t with hno | ⟨slot, u, hyes, hone⟩
      · -- the refused action keeps its flag, and so do the ones after it
        have hid : (invalidId.setWidth 8).setWidth 16 = invalidId := by decide
        simp only [hno, hid, if_true]
        obtain ⟨hundone, hqueue, htasks, hfree⟩ := h.undo hs
        refine ⟨fun b hb => ?_, hqueue, htasks, hfree⟩
        rcases List.mem_append.mp hb with hb | hb
        · exact hundone b hb
        · rcases List.mem_cons.mp hb with rfl | hb
          · exact ha
          · exact hoff' b hb
      · simp only [hyes, if_neg (stored_valid slot)] at hfail ⊢
        obtain ⟨qu, hu⟩ := h.register hone
        exact registerLoop_fails hs hu hoff' hfail

/-- **Registration is atomic**: if it fails, no action is on, and the scheduler's queue,
its deadlines and its free slots are those before the call. -/
theorem registration_atomic {ls : List Label} {s : State} (r : Run Step Safe initial ls s)
    (cnt : BitVec 32) {l : List TimedAction} (hoff : ∀ a ∈ l, a.isOn = false)
    (hfail : (registerAll l (s.atCount cnt)).2.2 = false) :
    RolledBack (s.atCount cnt) (registerAll l (s.atCount cnt)).1
      (registerAll l (s.atCount cnt)).2.1 := by
  obtain ⟨q, hq⟩ := safe_run_consistent r
  have hstart : Registering (s.atCount cnt) q [] (s.atCount cnt) q :=
    ⟨by simp, by simp [slots], by simp [slots], by simp [slots], fun _ _ => rfl, hq.atCount cnt,
      by simp [slots]⟩
  exact registerLoop_fails (hq.atCount cnt) hstart hoff hfail

/-- An action every 7 µs. -/
def every7 : TimedAction := { action := some 2, period := 7#32, alarmPrecision := .microseconds }

/-- Seventeen of them do not fit. -/
theorem registration_atomic_seventeen :
    RolledBack (initial.atCount 0#32)
      (registerAll (List.replicate 17 every7) (initial.atCount 0#32)).1
      (registerAll (List.replicate 17 every7) (initial.atCount 0#32)).2.1 :=
  registration_atomic (.nil initial) 0#32 (by decide) (by decide +kernel)

/-- Sixteen tasks are registered; the callback of the first replaces it by a timeout, whose
slot `update` then releases. -/
def releasedRun : List Label :=
  (0#32, .call (.registerTask 10#32 (some 0))) ::
    List.replicate 15 (0#32, .call (.registerTask 1000#32 (some 1))) ++
    [(0#32, .timerInterrupt), (0#32, .update fun _ =>
      [(0#32, .unregisterTask 0#16), (0#32, .setTimeout 5#32 (some 1))])]

/-- **A queued slot that is free is overwritten**: the timeout's deadline is not the one
before the failed registration. -/
theorem released_deadline_lost :
    ¬ ∀ ls s, Run Step (fun _ _ => True) initial ls s → ∀ l : List TimedAction,
      (∀ a ∈ l, a.isOn = false) → (registerAll l s).2.2 = false →
      ∀ i ∈ queue s, ((registerAll l s).2.1.tasks i).nextFireUs = (s.tasks i).nextFireUs := by
  intro h
  have hrun : (exec (fun s (l : Label) => l.2.run (s.atCount l.1)) initial releasedRun).map
      (fun s => (decide (0 ∈ queue s), (s.tasks 0).nextFireUs, (registerAll [every7, every7] s).2.2,
        ((registerAll [every7, every7] s).2.1.tasks 0).nextFireUs)) =
      some (true, 15#32, false, 17#32) := by decide +kernel
  obtain ⟨s, hs, hfinal⟩ := Option.map_eq_some_iff.mp hrun
  simp only [Prod.mk.injEq, decide_eq_true_eq] at hfinal
  obtain ⟨hqueue, hbefore, hfail, hafter⟩ := hfinal
  have hsame := h releasedRun s (run_of_exec (fun _ _ _ => trivial) hs) [every7, every7] (by decide)
    hfail 0 hqueue
  rw [hbefore, hafter] at hsame
  exact absurd hsame (by decide)

end StLib.StateMachine.Rollback
