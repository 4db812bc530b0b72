import StLib.Scheduler.Deadlines

/-! # Exact periodicity

Repeating tasks registered at one tick with the counter at zero, and interrupts
delivered when the programmed interval ends: each task is marked ready at every
multiple of its period after that tick, once, and at no other tick
(`exact_periods`), whatever wraps on the way. -/
namespace StLib.Scheduler.Periodic

open StLib.Base.Runs
open StLib.Scheduler.Model StLib.Scheduler.Queue StLib.Scheduler.Steps StLib.Scheduler.Invariant
open StLib.Scheduler.QueueInvariant StLib.Scheduler.TrueTime StLib.Scheduler.Deadlines

/-- The scheduler started, with the tick at `t₀`. -/
def startAt (t₀ : Nat) : Timed where
  st := { Model.initial with globalTickUs := BitVec.ofNat 64 t₀ }
  tick := t₀

/-- Register the tasks in order, with the counter at zero. -/
def registerAll (ps : List (BitVec 32 × Callback)) (w : Timed) : Timed :=
  ps.foldl (fun w p => w.call 0#32 (.registerTask p.1 (some p.2))) w

/-- Interrupts come when the interval ends; updates come at any time; there are
no calls. -/
def OnSchedule (_ : Timed) : TimedLabel → Prop
  | (_, .call _) => False
  | (cnt, .timerInterrupt) => cnt = 0#32
  | (_, .update) => True

def isInterrupt : TimedLabel → Bool
  | (_, .timerInterrupt) => true
  | _ => false

/-! ## Registering -/

/-- The lowest free slot, when the slots below `k` are the taken ones. -/
theorem allocateSlot_first {s : State} {k : Nat} {slot : Slot}
    (hfree : ∀ i : Slot, s.isFree i = decide (k ≤ i.val)) (h : (allocateSlot s).1 = some slot)
    (hk : k < 16) : slot.val = k := by
  obtain ⟨hs, hlow, -⟩ := allocateSlot_some (show allocateSlot s = (some slot, _) from
    Prod.ext h rfl)
  rw [hfree] at hs
  have hle := of_decide_eq_true hs
  by_contra hne
  have := hlow ⟨k, hk⟩ (by rw [Fin.lt_def]; simp; omega)
  rw [hfree] at this
  simp at this

/-- The tasks `ps` have been registered at tick `t₀` and nothing has fired. -/
structure Registered (ps : List (BitVec 32 × Callback)) (t₀ : Nat) (w : Timed) (q : List Slot) :
    Prop where
  ahead : Ahead w q
  tick : w.tick = t₀
  marks : w.marks = []
  free : ∀ i : Slot, w.st.isFree i = decide (ps.length ≤ i.val)
  mem : ∀ i : Slot, i ∈ q ↔ i.val < ps.length
  task : ∀ (i : Slot) (hi : i.val < ps.length), (w.st.tasks i).repeating = true ∧
    (w.st.tasks i).periodUs = ps[i.val].1 ∧ (w.st.tasks i).callback = some ps[i.val].2 ∧
    w.deadline i = t₀ + ps[i.val].1.toNat

theorem registered_start (t₀ : Nat) : Registered [] t₀ (startAt t₀) [] := by
  have hc : Consistent (startAt t₀).st [] := Consistent.initial.congr rfl rfl rfl rfl rfl
  refine ⟨⟨⟨hc, rfl, by simp, List.Pairwise.nil⟩, by simp, fun _ => rfl, fun _ _ h => nomatch h⟩,
    rfl, rfl, ?_, by simp, fun i hi => nomatch hi⟩
  intro i
  have hall : ∀ i : Slot, Model.initial.isFree i = true := by decide
  rw [show (startAt t₀).st.isFree i = Model.initial.isFree i from rfl, hall i]
  simp

/-- One more registration takes the next slot. -/
theorem Registered.snoc {ps : List (BitVec 32 × Callback)} {t₀ : Nat} {w : Timed} {q : List Slot}
    (h : Registered ps t₀ w q) {p : BitVec 32 × Callback} (hp : GoodPeriod p.1)
    (hlen : ps.length < 16) :
    ∃ q', Registered (ps ++ [p]) t₀ (w.call 0#32 (.registerTask p.1 (some p.2))) q' := by
  obtain ⟨slot, task, halloc, -, hrep, hcb, hper, -, hrun⟩ := registerTask_succeeds (f := p.2)
    (accepted_of_goodPeriod hp) (show (w.st.atCount 0#32).isFree ⟨ps.length, hlen⟩ = true by
      rw [show (w.st.atCount 0#32).isFree = w.st.isFree from rfl, h.free]; simp)
  rw [period_of_goodPeriod hp] at hper
  replace hrun : (Call.registerTask p.1 (some p.2)).run (w.st.atCount 0#32) = _ :=
    congrArg Prod.snd hrun
  have hslot := allocateSlot_first (s := w.st.atCount 0#32) h.free halloc hlen
  have hfree : ∀ i, ((Call.registerTask p.1 (some p.2)).run (w.st.atCount 0#32)).isFree i =
      (w.st.isFree i && decide (i ≠ slot)) := fun i => by
    rw [hrun, armTask_isFree, claimSlot_isFree]
    rfl
  have hadd : (Call.registerTask p.1 (some p.2)).adds (w.st.atCount 0#32) = some slot :=
    adds_eq_some halloc (by rw [hfree]; simp)
  have hord : Ordinary w (0#32, .call (.registerTask p.1 (some p.2))) := by
    refine ⟨removeSafe_registerTask _ _ _, .inl rfl, ?_⟩
    simpa [Call.periodUs, period_of_goodPeriod hp] using hp.2
  obtain ⟨q', hcalled, hahead, htick⟩ := h.ahead.call hord
  obtain ⟨-, hmem, -, hsame⟩ := hcalled.added slot hadd
  have hlast : ∀ i : Slot, i.val < (ps ++ [p]).length ↔ i = slot ∨ i.val < ps.length := by
    intro i
    rw [List.length_append, List.length_singleton, Fin.ext_iff, hslot]
    omega
  have htask : (w.call 0#32 (.registerTask p.1 (some p.2))).st.tasks slot =
      ((armed (w.st.atCount 0#32) slot task (w.st.atCount 0#32).timeoutIdx).tasks slot) := by
    show ((Call.registerTask p.1 (some p.2)).run (w.st.atCount 0#32)).tasks slot = _
    rw [hrun, armTask_claimSlot, scheduleNextInterval_tasks]
    rfl
  refine ⟨q', hahead, htick.trans h.tick, h.marks, fun i => ?_, fun i => ?_, fun i hi => ?_⟩
  · show ((Call.registerTask p.1 (some p.2)).run (w.st.atCount 0#32)).isFree i = _
    have := hlast i
    rw [hfree, h.free, ← Bool.decide_and, decide_eq_decide, ← Nat.not_lt, ← Nat.not_lt, this]
    tauto
  · rw [hmem, hlast, h.mem]
  · by_cases he : i = slot
    · subst he
      have hget : (ps ++ [p])[i.val] = p := by
        simp only [hslot]
        exact List.getElem_concat_length rfl _
      rw [hget, htask, armed_tasks_self, Timed.call_deadline_self hadd, h.tick]
      exact ⟨hrep, hper, hcb, by simp [Call.periodUs, period_of_goodPeriod hp]⟩
    · have hi' := ((hlast i).mp hi).resolve_left he
      rw [hsame i he, Timed.call_deadline_of_ne hadd he, List.getElem_append_left hi']
      exact h.task i hi'

theorem registered_all {t₀ : Nat} {ps : List (BitVec 32 × Callback)} (hlen : ps.length ≤ 16)
    (hp : ∀ p ∈ ps, GoodPeriod p.1) : ∃ q, Registered ps t₀ (registerAll ps (startAt t₀)) q := by
  induction ps using List.reverseRecOn with
  | nil => exact ⟨[], registered_start t₀⟩
  | append_singleton ps p ih =>
    rw [List.length_append, List.length_singleton] at hlen
    obtain ⟨q, hq⟩ := ih (by omega) fun p' hp' => hp p' (List.mem_append_left _ hp')
    rw [registerAll, List.foldl_append]
    exact hq.snoc (hp p (by simp)) (by omega)

/-! ## Firing -/

/-- The ticks slot `i` was marked ready at, in order. -/
def ticksOf (w : Timed) (i : Slot) : List Nat :=
  (w.marks.filter fun m => m.2 = i).map Prod.fst

/-- The first `n` multiples of `p` after `t₀`. -/
def multiples (t₀ p n : Nat) : List Nat := (List.range n).map fun j => t₀ + (j + 1) * p

theorem multiples_succ (t₀ p n : Nat) :
    multiples t₀ p (n + 1) = multiples t₀ p n ++ [t₀ + (n + 1) * p] := by
  simp [multiples, List.range_succ]

/-- A slot is marked once by an interrupt that marks it. -/
theorem ticks_of_marked {q : List Slot} (hq : q.Nodup) (T : Nat) (i : Slot) :
    ((q.map fun j => (T, j)).filter fun m => m.2 = i).map Prod.fst =
      if i ∈ q then [T] else [] := by
  rw [List.filter_map, List.map_map]
  have hfilter : q.filter ((fun m : Nat × Slot => decide (m.2 = i)) ∘ fun j => (T, j)) =
      List.replicate (q.count i) i := by
    rw [← List.filter_eq i]
    rfl
  rw [hfilter, List.map_replicate]
  split
  next hi => rw [List.count_eq_one_of_mem hq hi]; rfl
  next hi => rw [List.count_eq_zero_of_not_mem hi]; rfl

/-- Each task has been marked at the multiples of its period up to the tick and is
due at the next one. -/
structure OnBeat (ps : List (BitVec 32 × Callback)) (t₀ : Nat) (w : Timed) (q : List Slot) :
    Prop where
  ahead : Ahead w q
  since : t₀ ≤ w.tick
  mem : ∀ i : Slot, i ∈ q ↔ i.val < ps.length
  task : ∀ (i : Slot) (hi : i.val < ps.length), (w.st.tasks i).repeating = true ∧
    (w.st.tasks i).periodUs = ps[i.val].1 ∧ (w.st.tasks i).callback = some ps[i.val].2
  beat : ∀ (i : Slot) (hi : i.val < ps.length),
    w.deadline i = t₀ + ((w.tick - t₀) / ps[i.val].1.toNat + 1) * ps[i.val].1.toNat ∧
    ticksOf w i = multiples t₀ ps[i.val].1.toNat ((w.tick - t₀) / ps[i.val].1.toNat)

theorem Registered.onBeat {ps : List (BitVec 32 × Callback)} {t₀ : Nat} {w : Timed}
    {q : List Slot} (h : Registered ps t₀ w q) : OnBeat ps t₀ w q := by
  refine ⟨h.ahead, Nat.le_of_eq h.tick.symm, h.mem, fun i hi => ?_, fun i hi => ?_⟩
  · obtain ⟨hr, hp, hc, -⟩ := h.task i hi
    exact ⟨hr, hp, hc⟩
  · obtain ⟨-, -, -, hd⟩ := h.task i hi
    rw [h.tick, hd, ticksOf, h.marks]
    simp [multiples]

/-- The number of periods elapsed when the next deadline has not passed. -/
theorem periods_elapsed {t₀ t n p : Nat} (h0 : t₀ + n * p ≤ t) (h1 : t < t₀ + (n + 1) * p) :
    (t - t₀) / p = n := by
  apply Nat.div_eq_of_lt_le
  · omega
  · omega

/-- An interrupt on the beat keeps it. -/
theorem OnBeat.interrupt {ps : List (BitVec 32 × Callback)} {t₀ : Nat} {w : Timed}
    {q : List Slot} (h : OnBeat ps t₀ w q) :
    ∃ w', TimedStep w (0#32, .timerInterrupt) w' ∧ (∃ q', OnBeat ps t₀ w' q') ∧
      (ps ≠ [] → w.tick < w'.tick) := by
  obtain ⟨w', q', hs, hf, hahead, htick⟩ := h.ahead.interrupt
  have hnd := h.ahead.onTime.consistent.nodup
  have hle : w.tick ≤ w'.tick := by rw [htick]; exact Nat.le_add_right ..
  refine ⟨w', hs, ⟨q', hahead, Nat.le_trans h.since hle, fun i => ?_, fun i hi => ?_,
    fun i hi => ?_⟩, fun hne => ?_⟩
  · rw [hf.mem, h.mem]
    exact ⟨fun hi => hi.1, fun hi => ⟨hi, fun _ => (h.task i hi).1⟩⟩
  · obtain ⟨hp, hr, hc⟩ := hf.same i
    rw [hp, hr, hc]
    exact h.task i hi
  · have hiq := (h.mem i).mpr hi
    obtain ⟨hrep, hper, -⟩ := h.task i hi
    obtain ⟨hdl, hticks⟩ := h.beat i hi
    obtain ⟨hlt, hfire⟩ := h.ahead.fireTick_le hiq
    have hsince := h.since
    have hpos : 0 < ps[i.val].1.toNat := by
      have := h.ahead.onTime.consistent.period i
        ((h.ahead.onTime.consistent.queued i).mp hiq).1
      rw [hper] at this
      exact this.1
    have hdiv := Nat.div_mul_le_self (w.tick - t₀) ps[i.val].1.toNat
    generalize (w.tick - t₀) / ps[i.val].1.toNat = n at hdl hticks hdiv
    have hperiod : w.period i = ps[i.val].1.toNat := by rw [Timed.period, hper]
    have hmul : (n + 1 + 1) * ps[i.val].1.toNat = (n + 1) * ps[i.val].1.toNat + ps[i.val].1.toNat :=
      Nat.succ_mul ..
    have hmarks : ticksOf w' i = ticksOf w i ++
        if i ∈ q.filter fun i => w.deadline i ≤ w.fireTick then [w.fireTick] else [] := by
      rw [ticksOf, hf.marks, List.filter_append, List.map_append,
        ticks_of_marked (hnd.filter _) w.fireTick i]
      rfl
    rw [hmarks, htick, hf.deadline, Timed.rearmed]
    by_cases hd : w.deadline i ≤ w.fireTick
    · -- due: the interrupt comes at its multiple
      have hnow : w.fireTick = t₀ + (n + 1) * ps[i.val].1.toNat := by omega
      have hin : i ∈ q.filter fun i => w.deadline i ≤ w.fireTick :=
        List.mem_filter.mpr ⟨hiq, by simpa using hd⟩
      have hcount : (w.fireTick - t₀) / ps[i.val].1.toNat = n + 1 := by
        apply periods_elapsed <;> omega
      rw [if_pos ⟨hin, hrep⟩, if_pos hin, hcount, hticks, hperiod, multiples_succ, hnow]
      exact ⟨by omega, rfl⟩
    · have hnin : i ∉ q.filter fun i => w.deadline i ≤ w.fireTick := fun hin =>
        hd (by simpa using (List.mem_filter.mp hin).2)
      have hcount : (w.fireTick - t₀) / ps[i.val].1.toNat = n := by
        apply periods_elapsed <;> omega
      rw [if_neg fun hc => hnin hc.1, if_neg hnin, hcount, List.append_nil]
      exact ⟨hdl, hticks⟩
  · have hin : (⟨0, by decide⟩ : Slot) ∈ q := (h.mem _).mpr (List.length_pos_iff.mpr hne)
    rw [htick]
    exact (h.ahead.fireTick_le hin).1

/-- An update keeps the beat. -/
theorem OnBeat.update {ps : List (BitVec 32 × Callback)} {t₀ : Nat} {w : Timed} {q : List Slot}
    (h : OnBeat ps t₀ w q) (cnt : BitVec 32) :
    ∃ w', TimedStep w (cnt, .update) w' ∧ OnBeat ps t₀ w' q ∧ w'.tick = w.tick := by
  obtain ⟨w', hs, hahead, htick, hdl, hmarks, htasks⟩ := h.ahead.update cnt
  refine ⟨w', hs, ⟨hahead, htick ▸ h.since, h.mem, ?_, ?_⟩, htick⟩
  · rw [htasks]; exact h.task
  · intro i hi
    rw [htick, hdl, ticksOf, hmarks]
    exact h.beat i hi

/-! ## Main results -/

/-- A run on schedule stays on the beat, and every interrupt moves the tick. -/
theorem run_onBeat {ps : List (BitVec 32 × Callback)} {t₀ : Nat} {w₀ w : Timed} {q₀ : List Slot}
    {ls : List TimedLabel} (h : OnBeat ps t₀ w₀ q₀) (r : Run TimedStep OnSchedule w₀ ls w) :
    (∃ q, OnBeat ps t₀ w q) ∧ (ps ≠ [] → w₀.tick + ls.countP isInterrupt ≤ w.tick) := by
  induction r with
  | nil => exact ⟨⟨q₀, h⟩, fun _ => by simp⟩
  | @snoc t u ls l _ hok hs ih =>
    obtain ⟨⟨q, hq⟩, hcount⟩ := ih
    obtain ⟨cnt, op⟩ := l
    cases op with
    | call c => exact hok.elim
    | timerInterrupt =>
      obtain rfl : cnt = 0#32 := hok
      obtain ⟨w', hw', hbeat, hmove⟩ := hq.interrupt
      obtain rfl := timedStep_det hw' hs
      refine ⟨hbeat, fun hne => ?_⟩
      have := hcount hne
      have := hmove hne
      rw [List.countP_append, List.countP_singleton, if_pos (by rfl)]
      omega
    | update =>
      obtain ⟨w', hw', hbeat, htick⟩ := hq.update cnt
      obtain rfl := timedStep_det hw' hs
      refine ⟨⟨q, hbeat⟩, fun hne => ?_⟩
      rw [List.countP_append, List.countP_singleton, if_neg (by simp [isInterrupt]), htick]
      exact hcount hne

/-- **Exact periodicity**: in every run on schedule task `k` has been marked ready
at exactly the multiples of its period after `t₀` up to the tick, once each and
in order; every interrupt moves the tick, so each multiple is reached; and the
run can always go on. -/
theorem exact_periods {ps : List (BitVec 32 × Callback)} {t₀ : Nat} {ls : List TimedLabel}
    {w : Timed} (hlen : ps.length ≤ 16) (hp : ∀ p ∈ ps, GoodPeriod p.1)
    (r : Run TimedStep OnSchedule (registerAll ps (startAt t₀)) ls w) :
    (∀ (k : Slot) (hk : k.val < ps.length), (w.st.tasks k).callback = some ps[k.val].2 ∧
      ticksOf w k = multiples t₀ ps[k.val].1.toNat ((w.tick - t₀) / ps[k.val].1.toNat)) ∧
    (ps ≠ [] → t₀ + ls.countP isInterrupt ≤ w.tick) ∧
    ∀ l, OnSchedule w l → ∃ w', TimedStep w l w' := by
  obtain ⟨q₀, hreg⟩ : ∃ q, Registered ps t₀ (registerAll ps (startAt t₀)) q :=
    registered_all hlen hp
  obtain ⟨⟨q, hq⟩, hcount⟩ := run_onBeat hreg.onBeat r
  rw [hreg.tick] at hcount
  refine ⟨fun k hk => ⟨(hq.task k hk).2.2, (hq.beat k hk).2⟩, hcount, ?_⟩
  rintro ⟨cnt, op⟩ hok
  cases op with
  | call c => exact hok.elim
  | timerInterrupt =>
    obtain rfl : cnt = 0#32 := hok
    obtain ⟨w', hs, -⟩ := hq.interrupt
    exact ⟨w', hs⟩
  | update =>
    obtain ⟨w', hs, -⟩ := hq.update cnt
    exact ⟨w', hs⟩

/-- Two tasks started just before the 32-bit wrap: the first interrupt. -/
theorem exact_periods_two_tasks :
    ∃ w, TimedStep (registerAll [(3#32, 0), (2#32, 1)] (startAt 0xFFFFFFFE))
        (0#32, .timerInterrupt) w ∧
      (w.st.tasks 1).callback = some 1 ∧ 0xFFFFFFFF ≤ w.tick ∧
      ticksOf w 1 = multiples 0xFFFFFFFE 2 ((w.tick - 0xFFFFFFFE) / 2) := by
  have hp : ∀ p ∈ ([(3#32, 0), (2#32, 1)] : List (BitVec 32 × Callback)), GoodPeriod p.1 := by
    simp [GoodPeriod]
  obtain ⟨w, hs⟩ := (exact_periods (by decide) hp (.nil _)).2.2 (0#32, .timerInterrupt) rfl
  have hrun := exact_periods (by decide) hp (.single
    (show OnSchedule _ (0#32, .timerInterrupt) from rfl) hs)
  obtain ⟨hcb, hticks⟩ := hrun.1 1 (by decide)
  exact ⟨w, hs, hcb, hrun.2.1 (by simp), hticks⟩

end StLib.Scheduler.Periodic
