import StLib.Scheduler.Reentrancy
import StLib.Sntp.Model

/-! # The timers of the client

The client remembers the ids of the last timeout of each kind. -/
namespace StLib.Sntp.Timers

open StLib.Base.Bytes StLib.Base.Runs
open StLib.Scheduler.Model (Slot Callback Call finishDispatch slotOfId)
open StLib.Scheduler.Steps StLib.Scheduler.Invariant StLib.Scheduler.Timeouts
open StLib.Scheduler.Reentrancy (ReleaseSafe)
open StLib.Sntp.Model

/-! ## What is claimed -/

def isClient (e : Entry) : Prop :=
  e.callback = some requestCallback ∨ e.callback = some tryNextServerCallback

/-- A slot holds a task of the client. -/
def Pending (s : State) (i : Slot) : Prop := ∃ e, held s.scheduler i = some e ∧ isClient e

structure Right (s : State) : Prop where
  one : ∀ i j, Pending s i → Pending s j → i = j
  stopped : s.pcb = false → ∀ i, ¬ Pending s i
  sent : s.sentNull = false

/-! ## The condition -/

/-- The scheduler's condition on removing calls, for two of them. -/
def CancelMeets (clock : Nat → Clock) (first second : BitVec 16) (s : State) : Prop :=
  RemoveSafe ((clock 0).elapse s.scheduler) (.cancelTimeout first) ∧
    RemoveSafe ((clock 1).elapse (cancelTimeout (clock 0) first s).scheduler)
      (.cancelTimeout second)

def StopMeets (clock : Nat → Clock) (s : State) : Prop :=
  s.pcb = true → CancelMeets clock s.requestTaskId s.tryNextServerTaskId s

def RequestMeets (env : Env) (s : State) : Prop :=
  requestMax < (requested env s).requestCount.toNat →
    StopMeets (fun k => env.clock (k + 1)) (requested env s)

/-- A kiss of death finds no timer. -/
structure RecvMeets (p : List Byte) (env : Env) (s : State) : Prop where
  ok : response s.opmode p = .ok → s.opmode = opmodePoll →
    CancelMeets env.clock s.tryNextServerTaskId s.requestTaskId s
  kod : response s.opmode p = .kod → s.opmode = opmodePoll → ∀ i, ¬ Pending s i
  stop : recvMax < (received p env s).recvCount.toNat →
    StopMeets (fun k => env.clock (k + 3)) (received p env s)

def ActionMeets (s : State) : Action → Prop
  | .start _ _ => True
  | .stop clock => StopMeets clock s
  | .recv p env => s.pcb = true → RecvMeets p env s
  | .call c clock => RemoveSafe (clock.elapse s.scheduler) c

def ScriptMeets : List Action → State → Prop
  | [], _ => True
  | a :: rest, s => ActionMeets s a ∧ ScriptMeets rest (a.run s)

/-- The last part is the scheduler's condition on a callback of another. -/
def Meets (s : State) : Event → Prop
  | .action a => ActionMeets s a
  | .interrupt _ => True
  | .dispatch slot script env =>
    if (s.scheduler.tasks slot).callback = some requestCallback then RequestMeets env s
    else if (s.scheduler.tasks slot).callback = some tryNextServerCallback then True
    else
      ScriptMeets script s ∧ ReleaseSafe (script.foldl Action.run s).scheduler slot

/-! ## What is kept -/

variable {s t : State} {d : Option Slot} {c : Clock} {i : Slot} {e : Entry}

/-- A timer other than the one whose callback runs. -/
def Other (d : Option Slot) (s : State) (i : Slot) : Prop := Pending s i ∧ d ≠ some i

/-- The entry is one that an id of the client leads to. -/
structure Known (s : State) (i : Slot) (e : Entry) : Prop where
  oneShot : e.repeating = false
  slot : slotOfId e.id = i
  id : e.id = s.requestTaskId ∨ e.id = s.tryNextServerTaskId

/-- What is kept while the callback of slot `d` runs, or between dispatches. -/
structure Kept (d : Option Slot) (s : State) : Prop where
  sound : ∃ q, Consistent s.scheduler q
  one : ∀ i j, Other d s i → Other d s j → i = j
  known : ∀ i e, held s.scheduler i = some e → isClient e → d ≠ some i → Known s i e
  stopped : s.pcb = false → ∀ i, ¬ Other d s i
  sent : s.sentNull = false

theorem Kept.right (h : Kept none s) : Right s where
  one i j hi hj := h.one i j ⟨hi, nofun⟩ ⟨hj, nofun⟩
  stopped hp i hi := h.stopped hp i ⟨hi, nofun⟩
  sent := h.sent

/-- No timer of the client is new in `t`. -/
def Fewer (s t : State) : Prop :=
  ∀ i e, held t.scheduler i = some e → isClient e → held s.scheduler i = some e

theorem Fewer.pending (h : Fewer s t) (hp : Pending t i) : Pending s i := by
  obtain ⟨e, he, hclient⟩ := hp
  exact ⟨e, h i e he hclient, hclient⟩

theorem fewer_of_drop (h : ∀ i, held t.scheduler i = none ∨
    held t.scheduler i = held s.scheduler i) : Fewer s t := by
  intro i e he _
  rcases h i with hnone | hsame
  · rw [hnone] at he
    cases he
  · exact hsame ▸ he

/-- What adds no timer of the client. -/
theorem Kept.fewer (h : Kept d s) (hf : Fewer s t) (hs : ∃ q, Consistent t.scheduler q)
    (hr : t.requestTaskId = s.requestTaskId) (ht : t.tryNextServerTaskId = s.tryNextServerTaskId)
    (hp : t.pcb = s.pcb) (hn : t.sentNull = s.sentNull) : Kept d t where
  sound := hs
  one i j hi hj := h.one i j ⟨hf.pending hi.1, hi.2⟩ ⟨hf.pending hj.1, hj.2⟩
  known i e he hclient hd := by
    obtain ⟨hone, hslot, hid⟩ := h.known i e (hf i e he hclient) hclient hd
    refine ⟨hone, hslot, ?_⟩
    rw [hr, ht]
    exact hid
  stopped hpcb i hi := h.stopped (hp ▸ hpcb) i ⟨hf.pending hi.1, hi.2⟩
  sent := hn.trans h.sent

/-- Where no timer is pending but the one whose callback runs. -/
theorem kept_of_none (hs : ∃ q, Consistent s.scheduler q) (h : ∀ i, ¬ Other d s i)
    (hn : s.sentNull = false) : Kept d s where
  sound := hs
  one i _ hi _ := absurd hi (h i)
  known i e he hclient hd := absurd ⟨⟨e, he, hclient⟩, hd⟩ (h i)
  stopped _ := h
  sent := hn

/-- The slot whose callback runs, with its entry: it is freed, or as it was. -/
def Running (e : Entry) (i : Slot) (s : State) : Prop :=
  s.scheduler.isFree i = true ∨
    held s.scheduler i = some e ∧ s.scheduler.isReady i = true

/-! ## The scheduler -/

theorem interrupt_spec {s : Sched} {q : List Slot} (h : Consistent s q) (cnt : BitVec 32) :
    held (interrupt s cnt) = held s ∧ (∃ q', Consistent (interrupt s cnt) q') ∧
      ∀ i, s.isReady i = true → (interrupt s cnt).isReady i = true := by
  obtain ⟨r, hr, hq⟩ := (h.atCount cnt).onTimerUpdate
  have hi : interrupt s cnt = r.1 := by
    rw [interrupt, hr]
    rfl
  obtain ⟨htable, hready⟩ := held_onTimerUpdate hr
  rw [hi]
  exact ⟨htable, hq, hready⟩

theorem elapse_spec {s : Sched} (h : ∃ q, Consistent s q) (c : Clock) :
    held (c.elapse s) = held s ∧ (∃ q, Consistent (c.elapse s) q) ∧
      ∀ i, s.isReady i = true → (c.elapse s).isReady i = true := by
  have hfold : ∀ (cnts : List (BitVec 32)) (s : Sched), (∃ q, Consistent s q) →
      held (cnts.foldl interrupt s) = held s ∧ (∃ q, Consistent (cnts.foldl interrupt s) q) ∧
        ∀ i, s.isReady i = true → (cnts.foldl interrupt s).isReady i = true := by
    intro cnts
    induction cnts with
    | nil => exact fun s h => ⟨rfl, h, fun _ hi => hi⟩
    | cons cnt rest ih =>
      rintro s ⟨q, hq⟩
      obtain ⟨htable, hs, hready⟩ := interrupt_spec hq cnt
      obtain ⟨htable', hs', hready'⟩ := ih _ hs
      exact ⟨htable'.trans htable, hs', fun i hi => hready' i (hready i hi)⟩
  obtain ⟨htable, ⟨q, hq⟩, hready⟩ := hfold c.interrupts s h
  exact ⟨htable, ⟨q, hq.atCount c.cnt⟩, hready⟩

theorem isReady_setTimeout (us : BitVec 32) (f : Option Callback) (s : Sched) (i : Slot) :
    (Scheduler.Model.setTimeout us f s).2.isReady i = s.isReady i := by
  rcases setTimeout_cases us f s with h | ⟨slot, task, -, -, -, -, -, -, -, -, h⟩
  · rw [h]
  · rw [h, armTask_claimSlot]
    simp only [Scheduler.Model.State.isReady, scheduleNextInterval_ready]
    rfl

/-- A new timer, where there was no other: its id is what one of the ids becomes. -/
theorem kept_setTimeout (c : Clock) (us : BitVec 32) (f : Callback)
    (hs : ∃ q, Consistent s.scheduler q) (hnone : ∀ i, ¬ Other d s i) (hp : s.pcb = true)
    (hn : s.sentNull = false)
    (ht : t.scheduler = (setTimeout c us f s).2.scheduler)
    (hid : (setTimeout c us f s).1 = t.requestTaskId ∨
      (setTimeout c us f s).1 = t.tryNextServerTaskId)
    (htp : t.pcb = s.pcb) (htn : t.sentNull = s.sentNull) :
    Kept d t ∧ ∀ i e, held s.scheduler i = some e ∧ s.scheduler.isReady i = true →
      held t.scheduler i = some e ∧ t.scheduler.isReady i = true := by
  obtain ⟨htable, ⟨q, hq⟩, hready⟩ := elapse_spec hs c
  have hsound : ∃ q', Consistent t.scheduler q' := by
    obtain ⟨q', hq', -⟩ := hq.call (c := .setTimeout us (some f)) (fun hrem => nomatch hrem)
    exact ⟨q', ht ▸ hq'⟩
  have hisReady : ∀ i, s.scheduler.isReady i = true → t.scheduler.isReady i = true := fun i hi => by
    rw [ht]
    exact (isReady_setTimeout us (some f) _ i).trans (hready i hi)
  rcases held_setTimeout us (some f) (c.elapse s.scheduler) with h | ⟨slot, hfree, hslot, h⟩
  · -- the scheduler has no slot left
    have hsame : held t.scheduler = held s.scheduler := by
      rw [ht]
      show held (Scheduler.Model.setTimeout us (some f) (c.elapse s.scheduler)).2 = _
      rw [h]
      exact htable
    refine ⟨kept_of_none hsound ?_ (htn.trans hn), fun i e hi => ⟨hsame ▸ hi.1, hisReady i hi.2⟩⟩
    rintro i ⟨⟨e, he, hclient⟩, hd⟩
    exact hnone i ⟨⟨e, hsame ▸ he, hclient⟩, hd⟩
  · have hadd : held t.scheduler = Function.update (held s.scheduler) slot
        (some ⟨some f, false, (setTimeout c us f s).1⟩) := by
      rw [ht, ← htable]
      exact h
    rw [htable] at hfree
    have honly : ∀ i, Other d t i → i = slot := by
      rintro i ⟨⟨e, he, hclient⟩, hd⟩
      by_contra hi
      rw [hadd, Function.update_of_ne hi] at he
      exact hnone i ⟨⟨e, he, hclient⟩, hd⟩
    have hkept : Kept d t := by
      constructor
      · exact hsound
      · exact fun i j hi hj => (honly i hi).trans (honly j hj).symm
      · intro i e he hclient hd
        obtain rfl := honly i ⟨⟨e, he, hclient⟩, hd⟩
        rw [hadd, Function.update_self] at he
        obtain rfl := Option.some.inj he
        exact ⟨rfl, hslot, hid⟩
      · intro hpcb
        rw [htp, hp] at hpcb
        cases hpcb
      · exact htn.trans hn
    refine ⟨hkept, fun i e hi => ⟨?_, hisReady i hi.2⟩⟩
    have hne : i ≠ slot := by
      rintro rfl
      rw [hfree] at hi
      cases hi.1
    rw [hadd, Function.update_of_ne hne]
    exact hi.1

theorem isFree_of_held {s : Sched} (h : held s i = none) : s.isFree i = true := by
  by_contra htaken
  rw [held_of_taken (Bool.eq_false_iff.mpr htaken)] at h
  cases h

/-- A cancelled timer. -/
theorem cancelTimeout_spec (hs : ∃ q, Consistent s.scheduler q) {id : BitVec 16}
    (hsafe : RemoveSafe (c.elapse s.scheduler) (.cancelTimeout id)) :
    Fewer s (cancelTimeout c id s) ∧ (∃ q, Consistent (cancelTimeout c id s).scheduler q) ∧
      (∀ f, held s.scheduler (slotOfId id) = some ⟨f, false, id⟩ →
        held (cancelTimeout c id s).scheduler (slotOfId id) = none) ∧
      ∀ e i, Running e i s → Running e i (cancelTimeout c id s) := by
  obtain ⟨htable, ⟨q, hq⟩, hready⟩ := elapse_spec hs c
  have hdrop := held_cancelTimeout id (c.elapse s.scheduler)
  rw [htable] at hdrop
  obtain ⟨q', hq', -⟩ := hq.call hsafe
  refine ⟨fewer_of_drop fun i => (hdrop i).1, ⟨q', hq'⟩, fun f hf => (hdrop _).2 rfl f hf, ?_⟩
  intro e i hrun
  rcases (hdrop i).1 with hnone | hsame
  · exact .inl (isFree_of_held hnone)
  · rcases hrun with hfree | ⟨hheld, hr⟩
    · exact .inl (isFree_of_held (hsame.trans (held_of_free hfree)))
    · refine .inr ⟨hsame.trans hheld, ?_⟩
      show (Scheduler.Model.cancelTimeout id (c.elapse s.scheduler)).2.isReady i = true
      rcases cancelTimeout_cases id (c.elapse s.scheduler) with h | ⟨-, -, -, h⟩
      · rw [h]
        exact hready i hr
      · -- a slot that is still taken is not the one that was dropped
        have hne : i ≠ slotOfId id := by
          rintro rfl
          have hgone : held (cancelTimeout c id s).scheduler (slotOfId id) = none := by
            show held (Scheduler.Model.cancelTimeout id (c.elapse s.scheduler)).2 _ = none
            rw [h]
            exact held_of_free (by simp)
          exact nomatch hgone.symm.trans (hsame.trans hheld)
        rw [h, dropTask_isReady, hready i hr, decide_eq_true hne]
        rfl

/-! ## The functions -/

/-- Both timers cancelled, in one order or the other. -/
theorem cancelBoth_spec {clock : Nat → Clock} {first second : BitVec 16} (h : Kept d s)
    (hids : s.requestTaskId = first ∧ s.tryNextServerTaskId = second ∨
      s.requestTaskId = second ∧ s.tryNextServerTaskId = first)
    (hm : CancelMeets clock first second s) :
    (∀ i, ¬ Other d (cancelBoth clock first second s) i) ∧
      (∃ q, Consistent (cancelBoth clock first second s).scheduler q) ∧
      ∀ e i, Running e i s → Running e i (cancelBoth clock first second s) := by
  obtain ⟨hfewer, hs, hgone, hrun⟩ := cancelTimeout_spec h.sound hm.1
  obtain ⟨hfewer', hs', hgone', hrun'⟩ := cancelTimeout_spec hs hm.2
  refine ⟨?_, hs', fun e i hi => hrun' e i (hrun e i hi)⟩
  rintro i ⟨⟨e, he, hclient⟩, hd⟩
  have hmiddle := hfewer' i e he hclient
  have hbefore := hfewer i e hmiddle hclient
  obtain ⟨hone, rfl, hid⟩ := h.known i e hbefore hclient hd
  obtain ⟨f, repeating, id⟩ := e
  obtain rfl : repeating = false := hone
  have hwhich : id = first ∨ id = second := by
    rcases hids with ⟨hr, ht⟩ | ⟨hr, ht⟩
    · rwa [hr, ht] at hid
    · rw [hr, ht] at hid
      exact hid.symm
  rcases hwhich with rfl | rfl
  · exact nomatch (hgone f hbefore).symm.trans hmiddle
  · exact nomatch (hgone' f hmiddle).symm.trans he

theorem stop_spec {clock : Nat → Clock} (h : Kept d s) (hm : StopMeets clock s) :
    Kept d (stop clock s) ∧ ∀ e i, Running e i s → Running e i (stop clock s) := by
  cases hp : s.pcb with
  | false =>
    have hstop : stop clock s =
        { s with requestTaskId := Scheduler.Model.invalidId
                 tryNextServerTaskId := Scheduler.Model.invalidId } := by
      unfold stop
      rw [if_neg (Bool.eq_false_iff.mp hp)]
    rw [hstop]
    exact ⟨kept_of_none h.sound (fun i hi => h.stopped hp i hi) h.sent, fun _ _ hi => hi⟩
  | true =>
    obtain ⟨hnone, hs, hrun⟩ := cancelBoth_spec h (.inl ⟨rfl, rfl⟩) (hm hp)
    have hstop : stop clock s =
        { cancelBoth clock s.requestTaskId s.tryNextServerTaskId s with
          pcb := false
          requestTaskId := Scheduler.Model.invalidId
          tryNextServerTaskId := Scheduler.Model.invalidId } := by
      unfold stop
      rw [if_pos hp]
    rw [hstop]
    exact ⟨kept_of_none hs hnone h.sent, hrun⟩

theorem setRequest_spec (hs : ∃ q, Consistent s.scheduler q) (hnone : ∀ i, ¬ Other d s i)
    (hp : s.pcb = true) (hn : s.sentNull = false) (c : Clock) (us : BitVec 32) :
    Kept d (setRequest c us s) ∧ ∀ i e, held s.scheduler i = some e ∧ s.scheduler.isReady i = true →
      held (setRequest c us s).scheduler i = some e ∧
        (setRequest c us s).scheduler.isReady i = true :=
  kept_setTimeout c us requestCallback hs hnone hp hn rfl (.inl rfl) rfl rfl

/-- `request` up to its last check sets one timer. -/
theorem requested_spec (hs : ∃ q, Consistent s.scheduler q) (hnone : ∀ i, ¬ Other d s i)
    (hp : s.pcb = true) (hn : s.sentNull = false) (env : Env) :
    Kept d (requested env s) ∧
      ∀ i e, held s.scheduler i = some e ∧ s.scheduler.isReady i = true →
        held (requested env s).scheduler i = some e ∧
          (requested env s).scheduler.isReady i = true := by
  unfold requested
  by_cases ha : s.address = 0
  · rw [if_pos ha]
    exact kept_setTimeout (env.clock 0) retryTimeoutInitial tryNextServerCallback hs hnone hp hn
      rfl (.inr rfl) rfl rfl
  · rw [if_neg ha]
    unfold sendRequest
    cases hbuf : env.pbufAlloc with
    | true =>
      rw [if_pos rfl]
      refine kept_setTimeout (env.clock 0) recvTimeout tryNextServerCallback hs hnone hp hn rfl
        (.inr rfl) rfl ?_
      show (s.sentNull || !s.pcb) = s.sentNull
      rw [hp]
      exact Bool.or_false _
    | false =>
      rw [if_neg Bool.false_ne_true]
      exact kept_setTimeout (env.clock 0) retryTimeoutInitial requestCallback hs hnone hp hn rfl
        (.inl rfl) rfl rfl

theorem requested_count (env : Env) (s : State) :
    (requested env s).requestCount = s.requestCount + 1 := by
  unfold requested sendRequest
  split
  · rfl
  · split
    · rfl
    · rfl

theorem request_spec (hs : ∃ q, Consistent s.scheduler q) (hnone : ∀ i, ¬ Other d s i)
    (hp : s.pcb = true) (hn : s.sentNull = false) {env : Env} (hm : RequestMeets env s) :
    Kept d (request env s) ∧
      ∀ i e, held s.scheduler i = some e ∧ s.scheduler.isReady i = true →
        Running e i (request env s) := by
  obtain ⟨hkept, hrun⟩ := requested_spec hs hnone hp hn env
  unfold request
  dsimp only
  split
  next hlimit =>
    obtain ⟨hstopped, hrun'⟩ := stop_spec hkept (hm hlimit)
    exact ⟨hstopped, fun i e hi => hrun' e i (.inr (hrun i e hi))⟩
  next => exact ⟨hkept, fun i e hi => .inr (hrun i e hi)⟩

theorem start_spec (h : Kept none s) (address : BitVec 32) (env : Env) :
    Kept none (start address env s) := by
  have hreset : Kept none { s with address, recvCount := 0, requestCount := 0 } :=
    h.fewer (fun _ _ he _ => he) h.sound rfl rfl rfl rfl
  unfold start
  dsimp only
  cases hp : s.pcb with
  | true =>
    rw [if_pos rfl]
    exact hp ▸ hreset
  | false =>
    rw [if_neg Bool.false_ne_true]
    have hnone : ∀ i, ¬ Other none s i := h.stopped hp
    split
    next =>
      split
      next =>
        -- the first request is not the last
        have hm : RequestMeets env { s with address, recvCount := 0, requestCount := 0, pcb := true } := by
          intro hlimit
          rw [requested_count] at hlimit
          replace hlimit : requestMax < ((0 : BitVec 16) + 1).toNat := hlimit
          exact absurd hlimit (by decide)
        exact (request_spec (s := { s with address, recvCount := 0, requestCount := 0, pcb := true })
          h.sound hnone rfl h.sent hm).1
      next => exact kept_of_none h.sound hnone h.sent
    next => exact kept_of_none h.sound hnone h.sent

theorem received_spec (h : Kept none s) (hp : s.pcb = true) {p : List Byte} {env : Env}
    (hm : RecvMeets p env s) : Kept none (received p env s) := by
  have hcount : ∀ {t : State}, Kept none t → Kept none { t with recvCount := t.recvCount + 1 } :=
    fun ht => ht.fewer (fun _ _ he _ => he) ht.sound rfl rfl rfl rfl
  unfold received
  dsimp only
  apply hcount
  cases herr : response s.opmode p with
  | ok =>
    by_cases hpoll : s.opmode = opmodePoll
    · obtain ⟨hnone, hs, -⟩ := cancelBoth_spec h (.inr ⟨rfl, rfl⟩) (hm.ok herr hpoll)
      simp only [if_pos hpoll]
      exact (setRequest_spec (s := { cancelBoth env.clock s.tryNextServerTaskId s.requestTaskId s with
        retryTimeout := retryTimeoutInitial }) hs hnone hp h.sent (env.clock 2) updateDelay).1
    · simp only [if_neg hpoll]
      exact h
  | kod =>
    by_cases hpoll : s.opmode = opmodePoll
    · have hnone : ∀ i, ¬ Other none s i := fun i hi => hm.kod herr hpoll i hi.1
      simp only [if_pos hpoll]
      exact (setRequest_spec h.sound hnone hp h.sent (env.clock 0) s.retryTimeout).1
    · simp only [if_neg hpoll]
      exact h
  | timeout => exact h
  | arg => exact h

theorem recv_spec (h : Kept none s) (hp : s.pcb = true) {p : List Byte} {env : Env}
    (hm : RecvMeets p env s) : Kept none (recv p env s) := by
  have hkept := received_spec h hp hm
  unfold recv
  dsimp only
  split
  next hlimit => exact (stop_spec hkept (hm.stop hlimit)).1
  next => exact hkept

/-! ## The program and its callbacks -/

/-- Another's call adds no timer of the client. -/
theorem fewer_call {c : Call} (hf : foreign c) {clock : Clock}
    (hs : ∃ q, Consistent s.scheduler q) :
    Fewer s { s with scheduler := c.run (clock.elapse s.scheduler) } := by
  obtain ⟨htable, -⟩ := elapse_spec hs clock
  have hnot : ∀ {e : Entry} {func : Option Callback}, e.callback = func →
      func ≠ some requestCallback ∧ func ≠ some tryNextServerCallback → ¬ isClient e := by
    rintro e func rfl ⟨hr, ht⟩ (hc | hc)
    · exact hr hc
    · exact ht hc
  cases c with
  | registerTask us func =>
    intro i e he hclient
    rcases held_registerTask us func (clock.elapse s.scheduler) i with hsame | ⟨id, hnew⟩
    · exact htable ▸ hsame ▸ he
    · obtain rfl := Option.some.inj (hnew.symm.trans he)
      exact absurd hclient (hnot rfl hf)
  | setTimeout us func =>
    intro i e he hclient
    rcases held_setTimeout us func (clock.elapse s.scheduler) with h | ⟨slot, -, -, hadd⟩
    · have hsame : held (Scheduler.Model.setTimeout us func (clock.elapse s.scheduler)).2 i =
          held (clock.elapse s.scheduler) i := by rw [h]
      exact htable ▸ hsame ▸ he
    · replace he : held (Scheduler.Model.setTimeout us func (clock.elapse s.scheduler)).2 i =
        some e := he
      rw [hadd] at he
      by_cases hi : i = slot
      · rw [hi, Function.update_self] at he
        obtain rfl := Option.some.inj he
        exact absurd hclient (hnot rfl hf)
      · rw [Function.update_of_ne hi, htable] at he
        exact he
  | unregisterTask id =>
    refine fewer_of_drop fun i => ?_
    rw [← htable]
    exact held_unregisterTask id (clock.elapse s.scheduler) i
  | cancelTimeout id =>
    refine fewer_of_drop fun i => ?_
    rw [← htable]
    exact (held_cancelTimeout id (clock.elapse s.scheduler) i).1

theorem action_spec (h : Kept none s) {a : Action} (ha : a.Allowed) (hm : ActionMeets s a) :
    Kept none (a.run s) := by
  cases a with
  | start address env => exact start_spec h address env
  | stop clock => exact (stop_spec h hm).1
  | recv p env =>
    cases hp : s.pcb with
    | false =>
      rw [Action.run, if_neg (Bool.eq_false_iff.mp hp)]
      exact h
    | true =>
      rw [Action.run, if_pos hp]
      exact recv_spec h hp (hm hp)
  | call c clock =>
    obtain ⟨-, ⟨q, hq⟩, -⟩ := elapse_spec h.sound clock
    obtain ⟨q', hq', -⟩ := hq.call hm
    exact h.fewer (fewer_call ha h.sound) ⟨q', hq'⟩ rfl rfl rfl rfl

theorem script_spec (h : Kept none s) {script : List Action} (ha : ∀ a ∈ script, a.Allowed)
    (hm : ScriptMeets script s) : Kept none (script.foldl Action.run s) := by
  induction script generalizing s with
  | nil => exact h
  | cons a rest ih =>
    obtain ⟨hfirst, hrest⟩ := List.forall_mem_cons.mp ha
    exact ih (action_spec h hfirst hm.1) hrest hm.2

/-- When the callback of a timer has run, the timer is gone. -/
theorem finish_spec {slot : Slot} (h : Kept (some slot) s) (hone : e.repeating = false)
    (hrun : Running e slot s) :
    Kept none { s with scheduler := finishDispatch s.scheduler slot } := by
  obtain ⟨q, hq⟩ := h.sound
  have hsafe : (s.scheduler.tasks slot).repeating = false →
      s.scheduler.isFree slot = true ∨ s.scheduler.isReady slot = true :=
    fun _ => hrun.imp_right And.right
  have hdrop := held_finishDispatch s.scheduler slot
  have hgone : held (finishDispatch s.scheduler slot) slot = none := by
    rw [hdrop]
    split
    next => rfl
    next hkeeps =>
      rcases hrun with hfree | ⟨hheld, -⟩
      · exact held_of_free hfree
      · have htask := (taken_of_held hheld).2
        rw [htask] at hone
        exact absurd ⟨rfl, hone⟩ hkeeps
  have hbefore : ∀ i e, held (finishDispatch s.scheduler slot) i = some e →
      held s.scheduler i = some e ∧ some slot ≠ some i := by
    intro i e he
    have hne : slot ≠ i := by
      rintro rfl
      exact nomatch hgone.symm.trans he
    rw [hdrop, if_neg fun hi => hne hi.1.symm] at he
    exact ⟨he, fun hi => hne (Option.some.inj hi)⟩
  have hother : ∀ i, Other none { s with scheduler := finishDispatch s.scheduler slot } i →
      Other (some slot) s i := by
    rintro i ⟨⟨e, he, hclient⟩, -⟩
    obtain ⟨hheld, hne⟩ := hbefore i e he
    exact ⟨⟨e, hheld, hclient⟩, hne⟩
  constructor
  · exact ⟨q, StLib.Scheduler.Dispatching.consistent_finish hq hsafe⟩
  · exact fun i j hi hj => h.one i j (hother i hi) (hother j hj)
  · intro i e he hclient _
    obtain ⟨hheld, hne⟩ := hbefore i e he
    obtain ⟨h1, h2, h3⟩ := h.known i e hheld hclient hne
    exact ⟨h1, h2, h3⟩
  · exact fun hp i hi => h.stopped hp i (hother i hi)
  · exact h.sent

/-- A timer of the client that fires: there is no other. -/
theorem fired_spec (h : Kept none s) {slot : Slot} (hready : s.scheduler.isReady slot = true)
    (hclient : isClient (.ofTask (s.scheduler.tasks slot))) :
    held s.scheduler slot = some (.ofTask (s.scheduler.tasks slot)) ∧
      (s.scheduler.tasks slot).repeating = false ∧ s.pcb = true ∧
      ∀ i, ¬ Other (some slot) s i := by
  obtain ⟨q, hq⟩ := h.sound
  have hheld := held_of_taken (hq.readyTaken slot hready)
  have hpending : Other none s slot := ⟨⟨_, hheld, hclient⟩, nofun⟩
  refine ⟨hheld, (h.known slot _ hheld hclient nofun).oneShot, ?_, ?_⟩
  · by_contra hp
    exact h.stopped (Bool.eq_false_iff.mpr hp) slot hpending
  · rintro i ⟨hi, hne⟩
    exact hne (congrArg some (h.one slot i hpending ⟨hi, nofun⟩))

theorem dispatch_spec (h : Kept none s) {slot : Slot} {script : List Action} {env : Env}
    (hready : s.scheduler.isReady slot = true) (ha : ∀ a ∈ script, a.Allowed)
    (hm : Meets s (.dispatch slot script env)) : Kept none (dispatch slot script env s) := by
  dsimp only [Meets] at hm
  unfold dispatch callback
  dsimp only
  by_cases hr : (s.scheduler.tasks slot).callback = some requestCallback
  · rw [if_pos hr] at hm ⊢
    obtain ⟨hheld, hone, hp, hnone⟩ := fired_spec h hready (.inl hr)
    obtain ⟨hkept, hrun⟩ := request_spec h.sound hnone hp h.sent hm
    exact finish_spec hkept hone (hrun slot _ ⟨hheld, hready⟩)
  · rw [if_neg hr] at hm ⊢
    by_cases ht : (s.scheduler.tasks slot).callback = some tryNextServerCallback
    · rw [if_pos ht]
      obtain ⟨hheld, hone, hp, hnone⟩ := fired_spec h hready (.inr ht)
      obtain ⟨hkept, hrun⟩ := setRequest_spec h.sound hnone hp h.sent (env.clock 0) s.retryTimeout
      exact finish_spec hkept hone (.inr (hrun slot _ ⟨hheld, hready⟩))
    · rw [if_neg ht] at hm ⊢
      have hkept := script_spec h ha hm.1
      obtain ⟨q, hq⟩ := hkept.sound
      refine hkept.fewer (fewer_of_drop fun i => ?_)
        ⟨q, StLib.Scheduler.Dispatching.consistent_finish hq hm.2⟩ rfl rfl rfl rfl
      rw [held_finishDispatch]
      split
      · exact .inl rfl
      · exact .inr rfl

/-! ## Every run -/

theorem kept_step {x : Event} (h : Kept none s) (hm : Meets s x) (hstep : Step s x t) :
    Kept none t := by
  cases hstep with
  | action ha => exact action_spec h ha hm
  | interrupt cnt =>
    obtain ⟨q, hq⟩ := h.sound
    obtain ⟨htable, hs, -⟩ := interrupt_spec hq cnt
    exact h.fewer (fewer_of_drop fun i => .inr (congrFun htable i)) hs rfl rfl rfl rfl
  | dispatch hready ha => exact dispatch_spec h hready ha hm

theorem kept_initial : Kept none initial := by
  refine kept_of_none ⟨[], Consistent.initial⟩ ?_ rfl
  rintro i ⟨⟨e, he, -⟩, -⟩
  have hfree : ∀ i, held initial.scheduler i = none := by decide
  rw [hfree i] at he
  cases he

/-- **The client has one timer.** In every run in which a kiss of death finds no timer, and
whose calls of the scheduler it can take, at most one timer is pending, none when the client
has stopped, and no request is sent without a control block. -/
theorem one_timer {xs : List Event} (h : Run Step Meets initial xs s) : Right s :=
  (h.invariant kept_initial fun _ _ _ hk hm hstep => kept_step hk hm hstep).right

/-- A client that is started and stopped. -/
def started : State := Action.run initial (.start 1 {})

theorem one_timer_stopped : Right (Action.run started (.stop fun _ => {})) := by
  have hfirst : RemoveSafe (({} : Clock).elapse started.scheduler)
      (.cancelTimeout started.requestTaskId) := by
    decide +kernel
  have hsecond : RemoveSafe
      (({} : Clock).elapse (cancelTimeout {} started.requestTaskId started).scheduler)
      (.cancelTimeout started.tryNextServerTaskId) := by
    decide +kernel
  have hm : Meets started (.action (.stop fun _ => {})) := fun _ => ⟨hfirst, hsecond⟩
  have hm0 : Meets initial (.action (.start 1 {})) := trivial
  exact one_timer (.snoc (.snoc (.nil _) hm0 (.action trivial)) hm (.action trivial))

/-- A kiss of death leaves the timer of the request pending and sets another. -/
theorem second_timer :
    ¬ ∀ xs s, Run Step (fun _ _ => True) initial xs s → Right s := by
  intro hall
  let kissed := Action.run started (.recv (4 :: List.replicate 47 0) {})
  have hstart : Step initial (.action (.start 1 {})) started := .action trivial
  have hkiss : Step started (.action (.recv (4 :: List.replicate 47 0) {})) kissed :=
    .action trivial
  have hright := hall _ _ (.snoc (.snoc (.nil _) trivial hstart) trivial hkiss)
  have hfirst : held kissed.scheduler 0 = some ⟨some tryNextServerCallback, false, 16⟩ := by
    decide +kernel
  have hsecond : held kissed.scheduler 1 = some ⟨some requestCallback, false, 49⟩ := by
    decide +kernel
  have hsame := hright.one 0 1 ⟨_, hfirst, .inr rfl⟩ ⟨_, hsecond, .inl rfl⟩
  cases hsame

end StLib.Sntp.Timers
