import StLib.Base.Throttle
import StLib.Protections.EngineFaults

/-! # The throttle of the fault requests

`request_fault_if_due` keeps the tick of the last request of a protection, and 0 for none.
The calls of `request_fault` are noted beside the board; those of one protection are what
the throttle lets through of the ticks at which one of its rules is in `FAULT`
(`requests_eq`). They keep the delay unless the first is made at tick 0 and the second
comes within the delay (`requests_spaced_iff`). -/
namespace StLib.Protections.Throttling

open StLib.Base.Runs StLib.Base.Throttle
open StLib.Protections.Model
open StLib.Protections.FaultController StLib.Protections.ProtectionEngine
open StLib.Protections.EngineFaults

/-! ## The ticks of the faults of one protection -/

section
variable {S : Type} [ProtectionSample S]

/-- What one evaluation of a protection reads; the last is read for a request only. -/
structure Reading (S : Type) where
  sample : S
  ruleTick : Nat → BitVec 64
  requestTick : BitVec 64

/-- Some rule evaluates to `FAULT`. -/
def InFault (rules : List (RuleModel S)) (r : Reading S) : Prop :=
  ∃ x ∈ ruleEvaluations r.sample rules r.ruleTick, x.state = .fault

instance (rules : List (RuleModel S)) (r : Reading S) : Decidable (InFault rules r) :=
  inferInstanceAs (Decidable (∃ x ∈ _, _))

/-- The rules after one evaluation, and the ticks at which some rule was in `FAULT`. -/
def visit (s : List (RuleModel S) × List (BitVec 64)) (r : Reading S) :
    List (RuleModel S) × List (BitVec 64) :=
  ((evaluateRules r.sample s.1 r.ruleTick {}).2,
    if InFault s.1 r then s.2 ++ [r.requestTick] else s.2)

def visitAll (definitions : List (RuleDefinition S)) (rs : List (Reading S)) :
    List (RuleModel S) × List (BitVec 64) :=
  rs.foldl visit (definitions.map makeRuleModel, [])

/-- The ticks of the evaluations of a protection that find a rule in `FAULT`. -/
def faultTicks (definitions : List (RuleDefinition S)) (rs : List (Reading S)) :
    List (BitVec 64) :=
  (visitAll definitions rs).2

theorem visitAll_append (definitions : List (RuleDefinition S)) (rs : List (Reading S))
    (r : Reading S) :
    visitAll definitions (rs ++ [r]) = visit (visitAll definitions rs) r := by
  simp [visitAll]

end

/-! ## The calls of `request_fault` -/

variable {n : Nat} {κ υ : Type} {T : Fin n → Type}

/-- A board, and the calls of `request_fault` made so far: the protection and the tick. -/
abbrev Noted (T : Fin n → Type) (κ υ : Type) := Board T κ υ × List (Fin n × BitVec 64)

section
variable (prog : EngineProgram κ υ)

def notedFaultIfDue (tick : BitVec 64) (i : Fin n) (evaluation : ProtectionEvaluation)
    (x : Noted T κ υ) : Noted T κ υ :=
  let p := x.1.1.protections i
  if p.lastFaultPublishTick ≠ 0#64 ∧ tick - p.lastFaultPublishTick < notifyDelayInMicroseconds then x
  else
    ((x.1.1.setProtection i { p with lastFaultPublishTick := tick },
        requestFault prog.toProgram
          (prog.protectionCause p.name evaluation.activeFaultEdge evaluation.activeFaultSnapshot)
          x.1.2),
      x.2 ++ [(i, tick)])

variable [∀ i, ProtectionSample (T i)]

def notedEvaluateOne (r : Readings T) (x : Noted T κ υ) (i : Fin n) : Noted T κ υ :=
  let (evaluation, p) := (x.1.1.protections i).evaluate (r.sample i) (r.ruleTick i)
  let b := (publishEdgeEvents p.name evaluation (x.1.1.setProtection i p), x.1.2)
  if evaluation.hasActiveFault then notedFaultIfDue prog (r.requestTick i) i evaluation (b, x.2)
  else (b, x.2)

def notedEvaluate (r : Readings T) (x : Noted T κ υ) : Noted T κ υ :=
  (List.finRange n).foldl (notedEvaluateOne prog r) x

/-- The board is that of the evaluation. -/
theorem notedEvaluateOne_board (r : Readings T) (x : Noted T κ υ) (i : Fin n) :
    (notedEvaluateOne prog r x i).1 = evaluateOne prog r x.1 i := by
  unfold notedEvaluateOne evaluateOne notedFaultIfDue requestFaultIfDue
  dsimp only
  split
  · split <;> rfl
  · rfl

theorem notedEvaluate_board (r : Readings T) (x : Noted T κ υ) :
    (notedEvaluate prog r x).1 = evaluate prog r x.1 := by
  unfold notedEvaluate evaluate
  induction List.finRange n generalizing x with
  | nil => rfl
  | cons i l ih => rw [List.foldl_cons, List.foldl_cons, ih, notedEvaluateOne_board]

/-- A call as before, with the requests an evaluation makes. -/
def NotedStep [Inhabited κ] (x : Noted T κ υ) : EngineLabel T κ υ → Noted T κ υ → Prop
  | .evaluate found r, x' =>
    Around x.1.2 found ∧ x' = notedEvaluate prog r ((x.1.1, found), x.2)
  | .controller l, x' => Step prog.toProgram x.1.2 l x'.1.2 ∧ x'.1.1 = x.1.1 ∧ x'.2 = x.2

/-- The noted runs are the runs of the board. -/
theorem notedStep_board [Inhabited κ] {x : Noted T κ υ} {l : EngineLabel T κ υ}
    {b : Board T κ υ} :
    (∃ x', NotedStep prog x l x' ∧ x'.1 = b) ↔ EngineStep prog x.1 l b := by
  cases l with
  | evaluate found r =>
    constructor
    · rintro ⟨_, ⟨haround, rfl⟩, rfl⟩
      exact ⟨haround, notedEvaluate_board prog r _⟩
    · rintro ⟨haround, rfl⟩
      exact ⟨_, ⟨haround, rfl⟩, notedEvaluate_board prog r _⟩
  | controller l =>
    constructor
    · rintro ⟨_, ⟨hstep, hkept, -⟩, rfl⟩
      exact ⟨hstep, hkept⟩
    · exact fun ⟨hstep, hkept⟩ => ⟨(b, x.2), ⟨hstep, hkept, rfl⟩, rfl⟩

end

/-- The ticks of the requests of protection `i`. -/
def requestsOf (i : Fin n) (l : List (Fin n × BitVec 64)) : List (BitVec 64) :=
  (l.filter fun x => x.1 = i).map Prod.snd

theorem requestsOf_append (i j : Fin n) (l : List (Fin n × BitVec 64)) (tick : BitVec 64) :
    requestsOf i (l ++ [(j, tick)]) = requestsOf i l ++ if j = i then [tick] else [] := by
  unfold requestsOf
  by_cases h : j = i <;> simp [h]

/-! ## One protection -/

def Readings.of (r : Readings T) (i : Fin n) : Reading (T i) where
  sample := r.sample i
  ruleTick := r.ruleTick i
  requestTick := r.requestTick i

/-- What the evaluations of a run read for protection `i`. -/
def readingsOf (i : Fin n) (ls : List (EngineLabel T κ υ)) : List (Reading (T i)) :=
  ls.filterMap fun
    | .evaluate _ r => some (Readings.of r i)
    | .controller _ => none

theorem readingsOf_evaluate (i : Fin n) (ls : List (EngineLabel T κ υ)) (found : CWorld κ υ)
    (r : Readings T) :
    readingsOf i (ls ++ [.evaluate found r]) = readingsOf i ls ++ [Readings.of r i] :=
  List.filterMap_append

theorem readingsOf_controller (i : Fin n) (ls : List (EngineLabel T κ υ)) (l : Label κ υ) :
    readingsOf i (ls ++ [.controller l]) = readingsOf i ls :=
  List.filterMap_append.trans (List.append_nil _)

/-- What the throttle of protection `i` keeps, and its requests. -/
def throttleOf (x : Noted T κ υ) (i : Fin n) : BitVec 64 × List (BitVec 64) :=
  ((x.1.1.protections i).lastFaultPublishTick, requestsOf i x.2)

variable {prog : EngineProgram κ υ} [∀ i, ProtectionSample (T i)]

/-- Protection `i` and its requests are as before. -/
def Leaves (i : Fin n) (x x' : Noted T κ υ) : Prop :=
  x'.1.1.protections i = x.1.1.protections i ∧ requestsOf i x'.2 = requestsOf i x.2

/-- Protection `i` is evaluated once. -/
structure Visits (r : Readings T) (i : Fin n) (x x' : Noted T κ υ) : Prop where
  rules : (x'.1.1.protections i).rules =
    (evaluateRules (r.sample i) (x.1.1.protections i).rules (r.ruleTick i) {}).2
  throttle : throttleOf x' i =
    if InFault (x.1.1.protections i).rules (Readings.of r i) then
      letThrough notifyDelayInMicroseconds (throttleOf x i) (r.requestTick i)
    else throttleOf x i

theorem Leaves.visits {r : Readings T} {i : Fin n} {x y z : Noted T κ υ} (h : Leaves i x y)
    (h' : Visits r i y z) : Visits r i x z := by
  have hx : throttleOf y i = throttleOf x i := by rw [throttleOf, throttleOf, h.1, h.2]
  exact ⟨h.1 ▸ h'.rules, by rw [h'.throttle, hx, h.1]⟩

theorem Visits.leaves {r : Readings T} {i : Fin n} {x y z : Noted T κ υ} (h : Visits r i x y)
    (h' : Leaves i y z) : Visits r i x z := by
  have hz : throttleOf z i = throttleOf y i := by rw [throttleOf, throttleOf, h'.1, h'.2]
  exact ⟨h'.1 ▸ h.rules, hz.trans h.throttle⟩

theorem notedEvaluateOne_leaves (r : Readings T) (x : Noted T κ υ) {i j : Fin n} (h : j ≠ i) :
    Leaves i x (notedEvaluateOne prog r x j) := by
  have hset : ∀ (e : Engine T) (p : Protection (T j)),
      (e.setProtection j p).protections i = e.protections i :=
    fun _ _ => Function.update_of_ne h.symm ..
  unfold notedEvaluateOne notedFaultIfDue publishEdgeEvents
  dsimp only
  split
  · split
    · exact ⟨hset _ _, rfl⟩
    · refine ⟨(hset _ _).trans (hset _ _), ?_⟩
      rw [requestsOf_append, if_neg h, List.append_nil]
  · exact ⟨hset _ _, rfl⟩

theorem notedEvaluateOne_visits (r : Readings T) (x : Noted T κ υ) (i : Fin n) :
    Visits r i x (notedEvaluateOne prog r x i) := by
  have hset : ∀ (e : Engine T) (p : Protection (T i)), (e.setProtection i p).protections i = p :=
    fun _ _ => Function.update_self ..
  have hactive := hasActiveFault_iff (x.1.1.protections i) (r.sample i) (r.ruleTick i)
  have hrules : ((x.1.1.setProtection i ((x.1.1.protections i).evaluate (r.sample i)
      (r.ruleTick i)).2).protections i).rules = (evaluateRules (r.sample i)
        (x.1.1.protections i).rules (r.ruleTick i) {}).2 := by
    rw [hset]
    rfl
  -- the evaluation itself does not touch the tick of the last request
  have htick : ((x.1.1.setProtection i ((x.1.1.protections i).evaluate (r.sample i)
      (r.ruleTick i)).2).protections i).lastFaultPublishTick =
        (x.1.1.protections i).lastFaultPublishTick := by
    rw [hset]
    rfl
  unfold notedEvaluateOne notedFaultIfDue publishEdgeEvents
  dsimp only
  rw [hset]
  split
  next hfault =>
    have hin : InFault (x.1.1.protections i).rules (Readings.of r i) := hactive.mp hfault
    split
    next hskip =>
      have hlet : letThrough notifyDelayInMicroseconds (throttleOf x i) (r.requestTick i) =
        throttleOf x i := if_pos hskip
      refine ⟨hrules, ?_⟩
      rw [if_pos hin, hlet]
      exact Prod.ext htick rfl
    next hdue =>
      have hlet : letThrough notifyDelayInMicroseconds (throttleOf x i) (r.requestTick i) =
        (r.requestTick i, requestsOf i x.2 ++ [r.requestTick i]) := if_neg hdue
      refine ⟨congrArg Protection.rules (hset _ _), ?_⟩
      rw [if_pos hin, hlet]
      refine Prod.ext (congrArg Protection.lastFaultPublishTick (hset _ _)) ?_
      exact (requestsOf_append i i x.2 _).trans (by rw [if_pos rfl])
  next hquiet =>
    have hnot : ¬ InFault (x.1.1.protections i).rules (Readings.of r i) :=
      fun hin => hquiet (hactive.mpr hin)
    refine ⟨hrules, ?_⟩
    rw [if_neg hnot]
    exact Prod.ext htick rfl

theorem foldl_visits {l : List (Fin n)} (hl : l.Nodup) (r : Readings T) (i : Fin n)
    (x : Noted T κ υ) :
    (i ∉ l → Leaves i x (l.foldl (notedEvaluateOne prog r) x)) ∧
      (i ∈ l → Visits r i x (l.foldl (notedEvaluateOne prog r) x)) := by
  induction l generalizing x with
  | nil => exact ⟨fun _ => ⟨rfl, rfl⟩, fun h => absurd h List.not_mem_nil⟩
  | cons j l ih =>
    obtain ⟨hj, hl⟩ := List.nodup_cons.mp hl
    obtain ⟨hleaves, hvisits⟩ := ih hl (notedEvaluateOne prog r x j)
    rw [List.foldl_cons]
    constructor
    · intro hi
      obtain ⟨hij, hi⟩ := not_or.mp fun h => hi (List.mem_cons.mpr h)
      have hone : Leaves i x (notedEvaluateOne prog r x j) :=
        notedEvaluateOne_leaves r x (Ne.symm hij)
      exact ⟨(hleaves hi).1.trans hone.1, (hleaves hi).2.trans hone.2⟩
    · intro hi
      rcases List.mem_cons.mp hi with rfl | hi
      · exact (notedEvaluateOne_visits r x i).leaves (hleaves hj)
      · have hne : j ≠ i := fun h => hj (h ▸ hi)
        exact (notedEvaluateOne_leaves r x hne).visits (hvisits hi)

theorem notedEvaluate_visits (r : Readings T) (x : Noted T κ υ) (i : Fin n) :
    Visits r i x (notedEvaluate prog r x) :=
  (foldl_visits (List.nodup_finRange n) r i x).2 (List.mem_finRange i)

/-! ## Runs -/

variable [Inhabited κ]

/-- The rules and the requests of a protection in a run. -/
theorem requests_eq (e : Engine T) {w : CWorld κ υ} {ls : List (EngineLabel T κ υ)}
    {x : Noted T κ υ} (run : Run (NotedStep prog) (fun _ _ => True) (( e.initialize, w), []) ls x)
    (i : Fin n) :
    (x.1.1.protections i).rules =
        (visitAll (e.protections i).definitions (readingsOf i ls)).1 ∧
      throttleOf x i = (faultTicks (e.protections i).definitions (readingsOf i ls)).foldl
        (letThrough notifyDelayInMicroseconds) (0#64, []) := by
  induction run with
  | nil => exact ⟨rfl, rfl⟩
  | @snoc y z ls l _ _ hstep ih =>
    obtain ⟨hrules, hthrottle⟩ := ih
    cases l with
    | evaluate found r =>
      obtain ⟨-, rfl⟩ := hstep
      have hv : Visits r i ((y.1.1, found), y.2) (notedEvaluate prog r ((y.1.1, found), y.2)) :=
        notedEvaluate_visits r _ i
      have hfound : throttleOf ((y.1.1, found), y.2) i = throttleOf y i := rfl
      rw [readingsOf_evaluate, faultTicks, visitAll_append]
      constructor
      · rw [hv.rules, hrules]
        rfl
      · rw [hv.throttle, hfound, hthrottle, hrules, visit]
        dsimp only
        split
        next =>
          rw [List.foldl_append]
          rfl
        next => rfl
    | controller l =>
      obtain ⟨-, hkept, hlog⟩ := hstep
      rw [readingsOf_controller, throttleOf, hkept, hlog]
      exact ⟨hrules, hthrottle⟩

/-- **The requests of one protection**: in every run from `initialize`, when the ticks at
which it is in fault do not decrease, its requests keep the delay, unless the first of these
ticks is 0 and the second is within the delay. -/
theorem requests_spaced_iff (e : Engine T) {w : CWorld κ υ} {ls : List (EngineLabel T κ υ)}
    {x : Noted T κ υ} (run : Run (NotedStep prog) (fun _ _ => True) (( e.initialize, w), []) ls x)
    (i : Fin n)
    (hord : (faultTicks (e.protections i).definitions (readingsOf i ls)).Pairwise (· ≤ ·)) :
    (requestsOf i x.2).Pairwise
        (fun a b => a.toNat + notifyDelayInMicroseconds.toNat ≤ b.toNat) ↔
      ¬ ∃ t rest, faultTicks (e.protections i).definitions (readingsOf i ls) =
          0#64 :: t :: rest ∧ t < notifyDelayInMicroseconds := by
  have h := congrArg Prod.snd (requests_eq e run i).2
  change requestsOf i x.2 = passed _ _ at h
  rw [h]
  exact passed_spaced_iff (by decide) hord

/-- A board before its first evaluation. -/
def startWorld : CWorld String Unit where
  currentState _ := 0
  cyclicActions _ _ := []
  sched := Scheduler.Model.initial
  user := { latchedCause := default, program := () }

/-- The sample 12, and the request at a tick. -/
def readingAt (tick : BitVec 64) : Readings fun _ : Fin 1 => Int :=
  { oneReading with requestTick := fun _ => tick }

/-- The protection that is in fault above 10, evaluated once and twice. -/
def evaluatedOnce (t : BitVec 64) : Noted (fun _ : Fin 1 => Int) String Unit :=
  notedEvaluate namedProgram (readingAt t) (( oneProtection.initialize, startWorld), [])

def evaluatedTwice (t u : BitVec 64) : Noted (fun _ : Fin 1 => Int) String Unit :=
  notedEvaluate namedProgram (readingAt u) (evaluatedOnce t)

def evaluations (t u : BitVec 64) : List (EngineLabel (fun _ : Fin 1 => Int) String Unit) :=
  [.evaluate startWorld (readingAt t), .evaluate (evaluatedOnce t).1.2 (readingAt u)]

theorem evaluatedTwice_run (t u : BitVec 64) :
    Run (NotedStep namedProgram) (fun _ _ => True) (( oneProtection.initialize, startWorld), [])
      (evaluations t u) (evaluatedTwice t u) := by
  have hstart : Around startWorld startWorld := rfl
  have honce : Around (evaluatedOnce t).1.2 (evaluatedOnce t).1.2 := rfl
  exact .cons trivial ⟨hstart, rfl⟩ (.single trivial ⟨honce, rfl⟩)

theorem evaluations_faultTicks (t u : BitVec 64) :
    faultTicks (oneProtection.protections 0).definitions (readingsOf 0 (evaluations t u)) = [t, u] :=
  rfl

/-- Requests at the ticks 5 and 2000005. -/
theorem requests_spaced_later : (requestsOf 0 (evaluatedTwice 5#64 2000005#64).2).Pairwise
    fun a b => a.toNat + notifyDelayInMicroseconds.toNat ≤ b.toNat := by
  refine (requests_spaced_iff oneProtection (evaluatedTwice_run _ _) 0 ?_).mpr ?_
  · rw [evaluations_faultTicks]
    decide
  · rw [evaluations_faultTicks]
    rintro ⟨t, rest, h, -⟩
    exact absurd (List.cons.inj h).1 (by decide)

/-- **Two requests at tick 0**: the first one is not remembered. -/
theorem requests_at_zero : ¬ ∀ (e : Engine fun _ : Fin 1 => Int) (w : CWorld String Unit)
    (ls : List (EngineLabel (fun _ : Fin 1 => Int) String Unit)) x,
    Run (NotedStep namedProgram) (fun _ _ => True) (( e.initialize, w), []) ls x →
    (faultTicks (e.protections 0).definitions (readingsOf 0 ls)).Pairwise (· ≤ ·) →
    (requestsOf 0 x.2).Pairwise
      fun a b => a.toNat + notifyDelayInMicroseconds.toNat ≤ b.toNat := by
  intro h
  have hrun := evaluatedTwice_run 0#64 0#64
  have hticks := evaluations_faultTicks 0#64 0#64
  have hspaced := h oneProtection startWorld _ _ hrun (by rw [hticks]; decide)
  have hrequests : requestsOf 0 (evaluatedTwice 0#64 0#64).2 = [0#64, 0#64] :=
    congrArg Prod.snd (requests_eq oneProtection hrun 0).2
  rw [hrequests] at hspaced
  exact absurd hspaced (by decide)

end StLib.Protections.Throttling
