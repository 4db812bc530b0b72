import StLib.Scheduler.Invariant

/-! # The dispatch loop of `update`

Callbacks can clear ready bits and never set one, so the loop ends whatever they
call (`update_total`). What one dispatch keeps, the loop keeps
(`dispatchReady_rule`). -/
namespace StLib.Scheduler.Dispatching

open StLib.Scheduler.Model StLib.Scheduler.Queue StLib.Scheduler.Steps StLib.Scheduler.Invariant

/-! ## Ready bits -/

/-- The slots marked ready. -/
def readySet (s : State) : Finset Slot := Finset.univ.filter fun i => s.isReady i = true

@[simp] theorem mem_readySet {s : State} {i : Slot} : i ∈ readySet s ↔ s.isReady i = true := by
  simp [readySet]

theorem card_readySet_le (s : State) : (readySet s).card ≤ 16 := by
  simpa using Finset.card_le_univ (readySet s)

/-- Only slots have a ready bit. -/
def ReadySlots (s : State) : Prop := ∀ k, 16 ≤ k → s.readyBitmap.getLsbD k = false

/-- `t` has no ready bit that `s` has not. -/
def ReadyLe (t s : State) : Prop :=
  ∀ k, t.readyBitmap.getLsbD k = true → s.readyBitmap.getLsbD k = true

theorem ReadyLe.readySlots {s t : State} (h : ReadyLe t s) (hs : ReadySlots s) : ReadySlots t := by
  intro k hk
  cases hb : t.readyBitmap.getLsbD k with
  | false => rfl
  | true => rw [← h k hb, hs k hk]

theorem ReadyLe.trans {s t u : State} (h : ReadyLe u t) (h' : ReadyLe t s) : ReadyLe u s :=
  fun k hk => h' k (h k hk)

theorem clear_le (b : BitVec 32) (i : Slot) (k : Nat) (h : (b &&& ~~~bit i).getLsbD k = true) :
    b.getLsbD k = true := by
  rw [clear_getLsbD, Bool.and_eq_true] at h
  exact h.1

theorem call_readyLe (c : Call) (s : State) : ReadyLe (c.run s) s := by
  intro k hk
  rcases Call.run_cases c s with
    ⟨hrun, -⟩ | ⟨slot, task, idx, -, -, -, -, -, hrun⟩ | ⟨slot, -, -, -, hrun⟩
  · rwa [hrun] at hk
  · rw [hrun, armTask_claimSlot, scheduleNextInterval_ready] at hk
    exact hk
  · rw [hrun, dropTask, scheduleNextInterval_ready] at hk
    simpa using clear_le _ _ k hk

theorem runScript_readyLe : ∀ (sc : Script) (s : State), ReadyLe (runScript sc s) s
  | [], _ => fun _ h => h
  | (cnt, c) :: rest, s =>
    (runScript_readyLe rest _).trans (call_readyLe c (s.atCount cnt))

/-- A slot with a ready bit is the next to run. -/
theorem ctz_slot {s : State} (high : ReadySlots s)
    (h0 : s.readyBitmap ≠ 0#32) :
    ∃ h : s.readyBitmap.ctz.toNat < kMaxTasks, s.isReady ⟨s.readyBitmap.ctz.toNat, h⟩ = true := by
  have hbit := BitVec.getLsbD_true_ctz_of_ne_zero h0
  refine ⟨?_, hbit⟩
  by_contra hge
  rw [high _ (Nat.le_of_not_lt hge)] at hbit
  cases hbit

/-! ## The end of a dispatch -/

theorem finishDispatch_isReady (s : State) (slot i : Slot) :
    (finishDispatch s slot).isReady i = (s.isReady i && decide (i ≠ slot)) := by
  unfold finishDispatch
  dsimp only
  split <;> simp only [State.isReady, releaseSlot, clear_getLsbD, Ne, Fin.ext_iff]
  simp

theorem finishDispatch_isFree (s : State) (slot i : Slot) :
    (finishDispatch s slot).isFree i =
      (s.isFree i || (!(s.tasks slot).repeating && decide (i = slot))) := by
  unfold finishDispatch
  dsimp only
  split
  next hr => simp [hr]; rfl
  next hr => rw [releaseSlot_isFree]; simp [hr]; rfl

theorem finishDispatch_readyLe (s : State) (slot : Slot) : ReadyLe (finishDispatch s slot) s := by
  intro k
  unfold finishDispatch
  dsimp only
  split
  · exact clear_le _ _ k
  · exact fun hk => clear_le _ _ k (clear_le _ _ k hk)

@[simp] theorem finishDispatch_tasks (s : State) (slot : Slot) :
    (finishDispatch s slot).tasks = s.tasks := by
  unfold finishDispatch; dsimp only; split <;> rfl

@[simp] theorem finishDispatch_tick (s : State) (slot : Slot) :
    (finishDispatch s slot).globalTickUs = s.globalTickUs := by
  unfold finishDispatch; dsimp only; split <;> rfl

@[simp] theorem finishDispatch_interval (s : State) (slot : Slot) :
    (finishDispatch s slot).currentIntervalUs = s.currentIntervalUs := by
  unfold finishDispatch; dsimp only; split <;> rfl

/-- Ending the dispatch of a slot that repeats, is free, or is still a fired
timeout keeps the queue and the bitmaps in agreement. -/
theorem consistent_finish {s : State} {q : List Slot} {slot : Slot} (h : Consistent s q)
    (hs : (s.tasks slot).repeating = false → s.isFree slot = true ∨ s.isReady slot = true) :
    Consistent (finishDispatch s slot) q := by
  have hsorted : Holds (finishDispatch s slot) q := by
    unfold finishDispatch; dsimp only
    split <;> exact h.holds.congr rfl rfl
  refine ⟨hsorted, h.nodup, fun i => ?_, fun i => ?_, fun k hk => ?_, fun i => ?_⟩
  · rw [h.queued i, firedTimeout, firedTimeout, finishDispatch_isFree, finishDispatch_isReady,
      finishDispatch_tasks]
    by_cases hi : i = slot
    · subst hi
      cases hr : (s.tasks i).repeating with
      | true => simp
      | false =>
        rcases hs hr with hf | hf
        · simp [hf]
        · simp [hf]
    · simp [hi]
  · rw [finishDispatch_isFree, finishDispatch_isReady]
    intro hi
    simp only [Bool.and_eq_true, decide_eq_true_eq] at hi
    simp [h.readyTaken i hi.1, hi.2]
  · exact (finishDispatch_readyLe s slot).readySlots h.readySlots k hk
  · rw [finishDispatch_isFree, finishDispatch_tasks]
    intro hi
    exact h.period i (Bool.or_eq_false_iff.mp hi).1

/-! ## The loop -/

theorem dispatch_readyLe (d : Dispatch) : ReadyLe d.after d.before :=
  (finishDispatch_readyLe _ _).trans (runScript_readyLe _ _)

/-- A dispatch clears the ready bit it was made for. -/
theorem dispatch_readySet {d : Dispatch} (h : d.before.isReady d.slot = true) :
    (readySet d.after).card < (readySet d.before).card := by
  apply Finset.card_lt_card
  rw [Finset.ssubset_iff_of_subset fun i hi => by
    rw [mem_readySet] at hi ⊢
    exact dispatch_readyLe d _ hi]
  exact ⟨d.slot, mem_readySet.mpr h, by simp [Dispatch.after, finishDispatch_isReady]⟩

variable {scripts : Nat → Script}

/-- The loop ends whatever the callbacks call. -/
theorem dispatchReady_total : ∀ {rounds n : Nat} {s : State}, ReadySlots s →
    (readySet s).card ≤ rounds → ∃ r, dispatchReady scripts rounds n s = some r
  | 0, n, s, hs, h => by
    have hz : s.readyBitmap = 0#32 := by
      by_contra h0
      obtain ⟨hlt, hr⟩ := ctz_slot hs h0
      have hne : readySet s ≠ ∅ := Finset.nonempty_iff_ne_empty.mp ⟨_, mem_readySet.mpr hr⟩
      exact hne (Finset.card_eq_zero.mp (Nat.le_zero.mp h))
    exact ⟨_, by rw [dispatchReady, if_pos hz]⟩
  | rounds + 1, n, s, hs, h => by
    rw [dispatchReady]
    split_ifs with h0
    · exact ⟨_, rfl⟩
    · obtain ⟨hlt, hr⟩ := ctz_slot hs h0
      let d : Dispatch := ⟨⟨s.readyBitmap.ctz.toNat, hlt⟩, s, scripts n⟩
      have hcard : (readySet d.after).card < (readySet s).card := dispatch_readySet (d := d) hr
      obtain ⟨r, hr'⟩ : ∃ r, dispatchReady scripts rounds (n + 1) d.after = some r :=
        dispatchReady_total ((dispatch_readyLe d).readySlots hs) (by omega)
      exact ⟨_, by simp only [dif_pos hlt]; rw [hr']; rfl⟩

/-- What holds before the loop with nothing dispatched, and is kept by every
dispatch of a ready slot that meets the condition `G`, holds after a loop whose
dispatches all meet it, and then nothing is ready. -/
theorem dispatchReady_rule {P : State → List Dispatch → Prop} {G : Dispatch → Prop}
    (hstep : ∀ l d, P d.before l → d.before.isReady d.slot = true →
      (∃ n, d.script = scripts n) → G d → P d.after (l ++ [d])) :
    ∀ {rounds n s l r}, P s l → dispatchReady scripts rounds n s = some r →
      (∀ d ∈ r.2, G d) → P r.1 (l ++ r.2) ∧ r.1.readyBitmap = 0#32
  | 0, n, s, l, r, hP, h, _ => by
    rw [dispatchReady] at h
    split_ifs at h with h0
    cases h
    exact ⟨by simpa using hP, h0⟩
  | rounds + 1, n, s, l, r, hP, h, hG => by
    rw [dispatchReady] at h
    split_ifs at h with h0
    · cases h
      exact ⟨by simpa using hP, h0⟩
    · dsimp only at h
      split at h
      next hlt =>
        obtain ⟨r', hr', rfl⟩ := Option.map_eq_some_iff.mp h
        simp only [List.mem_cons, forall_eq_or_imp] at hG
        have hr : s.isReady ⟨s.readyBitmap.ctz.toNat, hlt⟩ = true :=
          BitVec.getLsbD_true_ctz_of_ne_zero h0
        have := dispatchReady_rule hstep (hstep l _ hP hr ⟨n, rfl⟩ hG.1) hr' hG.2
        simpa using this
      next => cases h

/-- `update` without the id it clears. -/
theorem update_eq (s : State) :
    update scripts s = dispatchReady scripts 32 0 { s with failingId := invalidId } := by
  unfold update
  split
  · rfl
  next h => rw [show { s with failingId := invalidId } = s by rw [← not_not.mp h]]

/-- **`update` returns**, whatever the callbacks call. -/
theorem update_total {s : State} (hs : ReadySlots s) (scripts : Nat → Script) :
    ∃ r, update scripts s = some r := by
  rw [update_eq]
  exact dispatchReady_total hs (Nat.le_trans (card_readySet_le _) (by decide))

end StLib.Scheduler.Dispatching
