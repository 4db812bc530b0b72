import Mathlib.Data.List.Nodup
import StLib.Base.UnorderedRemove
import StLib.Timers.Model

/-! # What an accepted list is given

The three passes of `build`, read as lists: the requests that name their timer in list
order, then the `Any32bit` and the `AnyGeneralPurpose` ones in the order of the work list. -/
namespace StLib.Timers.Allocation

open Model
open Base.UnorderedRemove

/-! ## Orders and timers -/

def named (requests : List Entry) (t : Nat) : Bool :=
  requests.any fun e => e.isSpecific && e.reqint == t

def any32bitTimers (scheduler : SchedulerTimer) (requests : List Entry) : List Nat :=
  bits32Timers.filter fun t => !named requests t && t != scheduler.value

def candidates (requests : List Entry) : List Nat :=
  (bits16Timers ++ upDownUpdownTimers ++ bits32Timers).filter fun t => !named requests t

/-- The requests that name their timer. -/
def specificOrder (requests : List Entry) : List Nat :=
  (List.range requests.length).filter fun i => (entry requests i).isSpecific

/-- The requests that the first pass leaves: in the place of a request it served stands
one from the end of the list. -/
def workList (requests : List Entry) : List Nat :=
  (List.range (requests.length - requests.countP Entry.isSpecific)).map fun j =>
    if (entry requests j).isSpecific then
      requests.length - (requests.take (j + 1)).countP Entry.isSpecific
    else j

def isAny32bitAt (requests : List Entry) (i : Nat) : Bool := (entry requests i).isAny32bit

/-- The `Any32bit` requests and the others, as the second pass finds them. -/
def sorted (requests : List Entry) : List Nat × List Nat :=
  sweep (isAny32bitAt requests) (workList requests)

/-- The requests in the order in which they are served. -/
def serviceOrder (requests : List Entry) : List Nat :=
  specificOrder requests ++ (sorted requests).1 ++ (sorted requests).2

/-- Request `i` served by timer `reqint`. -/
def served (requests : List Entry) (i reqint : Nat) : Nat × Config :=
  (i, config reqint (entry requests i))

/-! ## The first pass -/

theorem entry_append_left {done rest : List Entry} {j : Nat} (h : j < done.length) :
    entry (done ++ rest) j = entry done j := by
  simp [entry, List.getElem?_append_left h]

theorem entry_beyond {done : List Entry} {j : Nat} (h : done.length ≤ j) :
    (entry done j).isSpecific = false := by
  rw [entry, List.getD_eq_getElem?_getD, List.getElem?_eq_none h]
  rfl

theorem entry_concat (done : List Entry) (e : Entry) : entry (done ++ [e]) done.length = e := by
  simp [entry]

/-- What the first pass has done when it has seen `done` of `n` requests. -/
structure Passed (n : Nat) (done : List Entry) (l : Locals) : Prop where
  cfgs : l.cfgs = (specificOrder done).map fun i => served done i (entry done i).reqint
  usedTimers : l.usedTimers = named done
  distinct : ((done.filter Entry.isSpecific).map Entry.reqint).Nodup
  count : l.count = n - done.countP Entry.isSpecific
  remaining : ∀ j < l.count, l.remaining j =
    if (entry done j).isSpecific then n - (done.take (j + 1)).countP Entry.isSpecific else j

theorem specificOrder_concat (done : List Entry) (e : Entry) :
    (specificOrder (done ++ [e])).map (fun i => served (done ++ [e]) i (entry (done ++ [e]) i).reqint) =
      (specificOrder done).map (fun i => served done i (entry done i).reqint) ++
        if e.isSpecific then [(done.length, config e.reqint e)] else [] := by
  have hold : ∀ i ∈ List.range done.length, entry (done ++ [e]) i = entry done i :=
    fun i hi => entry_append_left (List.mem_range.mp hi)
  unfold specificOrder served
  rw [List.length_append, List.length_singleton, List.range_succ, List.filter_append,
    List.map_append, List.filter_congr fun i hi => congrArg Entry.isSpecific (hold i hi)]
  congr 1
  · refine List.map_congr_left fun i hi => ?_
    rw [hold i (List.mem_filter.mp hi).1]
  · rw [List.filter_singleton, entry_concat]
    cases e.isSpecific
    · rfl
    · simp [entry_concat]

theorem countP_take_concat {done : List Entry} {e : Entry} {j : Nat} (h : j < done.length) :
    (done ++ [e]).take (j + 1) = done.take (j + 1) :=
  List.take_append_of_le_length h

theorem passed_step {n : Nat} {done : List Entry} {e : Entry} {l l' : Locals}
    (h : Passed n done l) (hs : specificStep done.length e l = .ok l') : Passed n (done ++ [e]) l' := by
  have hold : ∀ {j}, j < done.length → entry (done ++ [e]) j = entry done j := entry_append_left
  have hcount := List.countP_le_length (p := Entry.isSpecific) (l := done)
  unfold specificStep at hs
  cases he : e.isSpecific with
  | false =>
    rw [he, if_neg nofun] at hs
    obtain rfl := Except.ok.inj hs
    refine ⟨?_, ?_, ?_, ?_, fun j hj => ?_⟩
    · rw [specificOrder_concat, he, h.cfgs]
      simp
    · rw [h.usedTimers]
      funext t
      simp [named, he]
    · simpa [List.filter_append, he] using h.distinct
    · simpa [he] using h.count
    · rw [h.remaining j hj]
      rcases Nat.lt_trichotomy j done.length with hlt | rfl | hgt
      · rw [hold hlt, countP_take_concat hlt]
      · rw [entry_concat, he, entry_beyond (Nat.le_refl _)]
        rfl
      · rw [entry_beyond (by omega), entry_beyond (by simp; omega)]
        rfl
  | true =>
    rw [he, if_pos rfl] at hs
    cases hu : l.usedTimers e.reqint with
    | true =>
      rw [hu, if_pos rfl] at hs
      cases hs
    | false =>
      rw [hu, if_neg nofun] at hs
      obtain rfl := Except.ok.inj hs
      have hnew : l.count - 1 = n - (done ++ [e]).countP Entry.isSpecific := by
        rw [h.count, List.countP_append, List.countP_singleton, if_pos he]
        omega
      refine ⟨?_, ?_, ?_, hnew, fun j hj => ?_⟩
      · rw [specificOrder_concat, he, if_pos rfl, ← h.cfgs]
        rfl
      · show Function.update l.usedTimers e.reqint true = _
        rw [h.usedTimers]
        funext t
        rcases eq_or_ne t e.reqint with rfl | hne
        · simp [named, he]
        · simp [named, hne, hne.symm]
      · rw [List.filter_append, List.filter_singleton, he, List.map_append, List.nodup_append]
        refine ⟨h.distinct, List.pairwise_singleton .., fun a ha b hb hab => ?_⟩
        obtain ⟨d, hd, rfl⟩ := List.mem_map.mp ha
        obtain rfl : b = e.reqint := by simpa using hb
        obtain ⟨hmem, hspec⟩ := List.mem_filter.mp hd
        rw [h.usedTimers, named, List.any_eq_false] at hu
        exact hu d hmem (by simp [hspec, hab])
      · change j < l.count - 1 at hj
        show Function.update l.remaining done.length (l.remaining (l.count - 1)) j = _
        rcases Nat.lt_trichotomy j done.length with hlt | rfl | hgt
        · rw [Function.update_of_ne (Nat.ne_of_lt hlt), h.remaining j (by omega), hold hlt,
            countP_take_concat hlt]
        · -- the entry moved here has not been looked at
          rw [Function.update_self, h.remaining _ (by omega), entry_beyond (by omega), entry_concat, he,
            if_pos rfl, if_neg nofun, hnew, List.take_of_length_le (by simp)]
        · rw [Function.update_of_ne (Nat.ne_of_gt hgt), h.remaining j (by omega),
            entry_beyond (by omega), entry_beyond (by simp; omega)]
          rfl

theorem passed_run {n : Nat} {rest done : List Entry} {l l' : Locals} (h : Passed n done l)
    (hn : (done ++ rest).length = n) (hs : specificPass done.length rest l = .ok l') :
    Passed n (done ++ rest) l' := by
  induction rest generalizing done l with
  | nil =>
    obtain rfl := Except.ok.inj hs
    simpa using h
  | cons e rest ih =>
    have hlt : done.length < n := by
      rw [← hn, List.length_append, List.length_cons]
      omega
    rw [specificPass] at hs
    cases hstep : specificStep done.length e l with
    | error m =>
      rw [hstep] at hs
      cases hs
    | ok v =>
      rw [hstep] at hs
      have hv := passed_step h hstep
      have hlen : (done ++ [e]).length = done.length + 1 := by simp
      rw [← hlen] at hs
      have hrun := ih hv (by simpa using hn) hs
      simpa using hrun

theorem passed_all {requests : List Entry} {l : Locals}
    (h : specificPass 0 requests { count := requests.length } = .ok l) :
    Passed requests.length requests l :=
  @passed_run _ _ [] _ _ ⟨rfl, rfl, List.nodup_nil, rfl, fun _ _ => rfl⟩ rfl h

/-! ## The second pass -/

/-- What the second pass has done from index `i` on, when it has removed `swept.1` and left
`swept.2`. -/
structure Swept (requests : List Entry) (timers : List Nat) (i : Nat) (l l' : Locals)
    (swept : List Nat × List Nat) : Prop where
  cfgs : l'.cfgs = l.cfgs ++ swept.1.map fun r => served requests r (timers.getD 0 0)
  usedTimers : l'.usedTimers = l.usedTimers
  count : l'.count = i + swept.2.length
  before : ∀ j < i, l'.remaining j = l.remaining j
  window : window l'.remaining i swept.2.length = swept.2
  some : swept.1 ≠ [] → timers ≠ []

section Second

variable {requests : List Entry} {timers : List Nat} {i : Nat} {l l' : Locals}
  {swept : List Nat × List Nat}

theorem Swept.removed (hne : timers ≠ [])
    (h : Swept requests timers i ((l.serve (l.remaining i) (timers.getD 0 0)
      (entry requests (l.remaining i))).remove i) l' swept) :
    Swept requests timers i l l' (l.remaining i :: swept.1, swept.2) where
  cfgs := by
    rw [h.cfgs, List.map_cons, ← List.singleton_append, ← List.append_assoc]
    rfl
  usedTimers := h.usedTimers
  count := h.count
  before j hj := (h.before j hj).trans (Function.update_of_ne (Nat.ne_of_lt hj) ..)
  window := h.window
  some _ := hne

theorem Swept.skipped (h : Swept requests timers (i + 1) l l' swept) :
    Swept requests timers i l l' (swept.1, l.remaining i :: swept.2) where
  cfgs := h.cfgs
  usedTimers := h.usedTimers
  count := by
    rw [h.count, List.length_cons]
    omega
  before j hj := h.before j (by omega)
  window := by rw [List.length_cons, window_succ, h.window, h.before i (Nat.lt_succ_self i)]
  some := h.some

/-- The second pass sweeps the `left` entries from index `i` on. -/
theorem any32bitPass_swept {left : Nat} (hcount : l.count = i + left)
    (hs : any32bitPass requests timers left i l = .ok l') :
    Swept requests timers i l l' (sweep (isAny32bitAt requests) (window l.remaining i left)) := by
  induction left generalizing i l with
  | zero =>
    obtain rfl := Except.ok.inj hs
    rw [window_zero, sweep_nil]
    exact ⟨(List.append_nil _).symm, rfl, hcount, fun _ _ => rfl, rfl, fun h => absurd rfl h⟩
  | succ left ih =>
    rw [window_succ]
    unfold any32bitPass at hs
    cases hany : isAny32bitAt requests (l.remaining i) with
    | true =>
      rw [sweep_cons_pos hany]
      rw [isAny32bitAt] at hany
      simp only [hany, if_true] at hs
      by_cases hne : timers.length ≤ count32bitRequests
      · rw [if_pos hne] at hs
        cases hs
      · rw [if_neg hne] at hs
        have hlast : l.count - 1 = i + left := by omega
        have hrem : lastFirst (window l.remaining (i + 1) left) =
            window (Function.update l.remaining i (l.remaining (l.count - 1))) i left := by
          rw [hlast, window_remove]
        rw [hrem]
        refine Swept.removed (fun h => hne ?_) (ih hlast hs)
        rw [h]
        exact Nat.le_refl 0
    | false =>
      rw [sweep_cons_neg hany]
      rw [isAny32bitAt] at hany
      simp only [hany, Bool.false_eq_true, if_false] at hs
      exact (ih (by omega) hs).skipped

end Second

/-! ## The third pass -/

/-- The third pass serves the `left` entries from index `i` on, in order. -/
theorem generalPass_serves {requests : List Entry} {timers : List Nat} {left i : Nat}
    {l l' : Locals} (hlen : i + left ≤ timers.length)
    (hs : generalPass requests timers left i l = .ok l') :
    l'.cfgs = l.cfgs ++ List.zipWith (served requests) (window l.remaining i left) (timers.drop i) ∧
      ∀ r ∈ window l.remaining i left, (entry requests r).isGeneralPurpose = true := by
  induction left generalizing i l with
  | zero =>
    obtain rfl := Except.ok.inj hs
    exact ⟨(List.append_nil _).symm, nofun⟩
  | succ left ih =>
    have hi : i < timers.length := by omega
    have hget : timers.getD i 0 = timers[i] := by simp [hi]
    unfold generalPass at hs
    cases hgen : (entry requests (l.remaining i)).isGeneralPurpose with
    | false =>
      simp only [hgen, Bool.false_eq_true, if_false] at hs
      cases hs
    | true =>
      simp only [hgen, if_true] at hs
      obtain ⟨hcfgs, hall⟩ := ih (by omega) hs
      rw [window_succ, List.drop_eq_getElem_cons hi]
      refine ⟨?_, List.forall_mem_cons.mpr ⟨hgen, hall⟩⟩
      rw [hcfgs, Locals.serve, List.append_assoc, hget]
      rfl

/-! ## Accepted lists -/

theorem bind_ok {ε α β : Type} {x : Except ε α} {f : α → Except ε β} {b : β}
    (h : x.bind f = .ok b) : ∃ a, x = .ok a ∧ f a = .ok b := by
  cases x with
  | error e => cases h
  | ok a => exact ⟨a, rfl, h⟩

/-- What the checks of a request leave. -/
structure Valid (scheduler : SchedulerTimer) (e : Entry) : Prop where
  notScheduler : e.reqint ≠ scheduler.value
  inRange : e.isSpecific → e.reqint ≤ 24 ∧ ¬ (e.reqint > 17 ∧ e.reqint < 23)

theorem checkRequest_valid {scheduler : SchedulerTimer} {e : Entry} {u : Unit}
    (h : checkRequest scheduler e = .ok u) : Valid scheduler e := by
  unfold checkRequest at h
  by_cases hs : e.reqint = scheduler.value
  · rw [if_pos hs] at h
    cases h
  · rw [if_neg hs] at h
    refine ⟨hs, fun hspec => ?_⟩
    by_contra hout
    rw [if_pos ⟨hspec, .inr (by omega)⟩] at h
    cases h

theorem checkRequests_valid {scheduler : SchedulerTimer} {requests : List Entry} {u : Unit}
    (h : checkRequests scheduler requests = .ok u) : ∀ e ∈ requests, Valid scheduler e := by
  induction requests with
  | nil => nofun
  | cons e rest ih =>
    obtain ⟨v, he, hrest⟩ := bind_ok h
    exact List.forall_mem_cons.mpr ⟨checkRequest_valid he, ih hrest⟩

theorem remaining32bitTimers_eq {scheduler : SchedulerTimer} {n : Nat} {requests : List Entry}
    {specific : Locals} (h : Passed n requests specific) :
    remaining32bitTimers scheduler specific = any32bitTimers scheduler requests := by
  rw [remaining32bitTimers, h.usedTimers]
  rfl

/-- What the second pass does with what the first one left. -/
theorem swept_all {requests : List Entry} {timers : List Nat} {specific any : Locals}
    (h : Passed requests.length requests specific)
    (hs : any32bitPass requests timers specific.count 0 specific = .ok any) :
    Swept requests timers 0 specific any (sorted requests) ∧
      remainingTimers any = candidates requests := by
  have hswept := any32bitPass_swept (Nat.zero_add _).symm hs
  have hwork : window specific.remaining 0 specific.count = workList requests := by
    rw [window, workList, ← h.count, ← List.range_eq_range']
    exact List.map_congr_left fun j hj => h.remaining j (List.mem_range.mp hj)
  rw [hwork] at hswept
  refine ⟨hswept, ?_⟩
  rw [remainingTimers, hswept.usedTimers, h.usedTimers]
  rfl

/-- What `build` returns on an accepted list, with what acceptance says of the list. -/
structure Accepted (scheduler : SchedulerTimer) (requests : List Entry)
    (assigned : List (Nat × Config)) : Prop where
  valid : ∀ e ∈ requests, Valid scheduler e
  distinct : ((requests.filter Entry.isSpecific).map Entry.reqint).Nodup
  some : (sorted requests).1 ≠ [] → any32bitTimers scheduler requests ≠ []
  enough : (sorted requests).2.length ≤ (candidates requests).length
  general : ∀ r ∈ (sorted requests).2, (entry requests r).isGeneralPurpose = true
  assigned : assigned =
    (specificOrder requests).map (fun i => served requests i (entry requests i).reqint) ++
      (sorted requests).1.map (fun r => served requests r ((any32bitTimers scheduler requests).getD 0 0)) ++
      List.zipWith (served requests) (sorted requests).2 (candidates requests)

theorem accepted {scheduler : SchedulerTimer} {requests : List Entry}
    {assigned : List (Nat × Config)} (h : assign scheduler requests = .ok assigned) :
    Accepted scheduler requests assigned := by
  unfold assign at h
  by_cases hsize : requests.length > maxInstances
  · rw [if_pos hsize] at h
    cases h
  rw [if_neg hsize] at h
  obtain ⟨u, hchecked, h⟩ := bind_ok h
  obtain ⟨specific, hspecific, h⟩ := bind_ok h
  obtain ⟨any, hany, h⟩ := bind_ok h
  by_cases henough : any.count > (remainingTimers any).length
  · rw [if_pos henough] at h
    cases h
  rw [if_neg henough] at h
  obtain ⟨all, hgeneral, h⟩ := bind_ok h
  obtain rfl := Except.ok.inj h
  have hpassed := passed_all hspecific
  obtain ⟨hswept, hcandidates⟩ := swept_all hpassed hany
  rw [remaining32bitTimers_eq hpassed] at hswept
  have hcount : any.count = (sorted requests).2.length := hswept.count.trans (Nat.zero_add _)
  obtain ⟨hcfgs, hgen⟩ := generalPass_serves (by omega) hgeneral
  rw [hcandidates, hcount] at henough
  rw [hcount, hcandidates, List.drop_zero] at hcfgs
  have hwindow : window any.remaining 0 (sorted requests).2.length = (sorted requests).2 := hswept.window
  rw [hcount, hwindow] at hgen
  refine ⟨checkRequests_valid hchecked, hpassed.distinct, hswept.some, by omega, hgen, ?_⟩
  rw [hcfgs, hwindow, hswept.cfgs, hpassed.cfgs]

/-! ## Every request is served once -/

theorem map_entry (requests : List Entry) :
    (List.range requests.length).map (entry requests) = requests := by
  refine List.ext_getElem (by simp) fun i h1 h2 => ?_
  simp [entry, h2]

theorem countP_entry (requests : List Entry) (p : Entry → Bool) :
    (List.range requests.length).countP (fun i => p (entry requests i)) = requests.countP p := by
  calc (List.range requests.length).countP (fun i => p (entry requests i))
      = ((List.range requests.length).map (entry requests)).countP p := by
        rw [List.countP_map]
        rfl
    _ = requests.countP p := by rw [map_entry]

variable {requests : List Entry}

theorem rank_le (requests : List Entry) (j : Nat) :
    (requests.take (j + 1)).countP Entry.isSpecific ≤ requests.countP Entry.isSpecific :=
  (List.take_sublist _ _).countP_le

theorem rank_succ {j : Nat} (h : (entry requests j).isSpecific = true) :
    (requests.take (j + 1)).countP Entry.isSpecific =
      (requests.take j).countP Entry.isSpecific + 1 := by
  have hlt : j < requests.length := by
    by_contra hge
    exact absurd ((entry_beyond (Nat.not_lt.mp hge)).symm.trans h) nofun
  have hget : requests[j].isSpecific = true := by simpa [entry, hlt] using h
  rw [List.take_succ_eq_append_getElem hlt, List.countP_append, List.countP_singleton, if_pos hget]

theorem rank_strict {i j : Nat} (hij : i < j) (h : (entry requests j).isSpecific = true) :
    (requests.take (i + 1)).countP Entry.isSpecific <
      (requests.take (j + 1)).countP Entry.isSpecific := by
  have hle : (requests.take (i + 1)).countP Entry.isSpecific ≤
      (requests.take j).countP Entry.isSpecific :=
    (List.take_sublist_take_left (Nat.succ_le_of_lt hij)).countP_le
  rw [rank_succ h]
  omega

theorem workList_nodup (requests : List Entry) : (workList requests).Nodup := by
  refine List.Nodup.map_on (fun i hi j hj hij => ?_) List.nodup_range
  have hi' := List.mem_range.mp hi
  have hj' := List.mem_range.mp hj
  have hri := rank_le requests i
  have hrj := rank_le requests j
  cases hsi : (entry requests i).isSpecific <;> cases hsj : (entry requests j).isSpecific <;>
    simp only [hsi, hsj, Bool.false_eq_true, if_true, if_false] at hij
  · exact hij
  · omega
  · omega
  · -- two entries moved from the end of the list
    rcases Nat.lt_trichotomy i j with hlt | rfl | hgt
    · have := rank_strict hlt hsj
      omega
    · rfl
    · have := rank_strict hgt hsi
      omega

theorem workList_lt {r : Nat} (h : r ∈ workList requests) : r < requests.length := by
  obtain ⟨j, hj, rfl⟩ := List.mem_map.mp h
  have hj' := List.mem_range.mp hj
  cases hs : (entry requests j).isSpecific with
  | false =>
    rw [if_neg nofun]
    omega
  | true =>
    have := rank_succ hs
    rw [if_pos rfl]
    omega

/-- When the work list names no timer, it holds every request that does not. -/
theorem workList_perm (h : ∀ r ∈ workList requests, (entry requests r).isSpecific = false) :
    (workList requests).Perm
      ((List.range requests.length).filter fun i => !(entry requests i).isSpecific) := by
  refine (List.subperm_of_subset (workList_nodup requests) fun r hr => ?_).perm_of_length_le ?_
  · exact List.mem_filter.mpr ⟨List.mem_range.mpr (workList_lt hr), by rw [h r hr]; rfl⟩
  · have hsplit := List.length_eq_countP_add_countP Entry.isSpecific (l := requests)
    have hcount := countP_entry requests fun e => !e.isSpecific
    rw [← List.countP_eq_length_filter, hcount, workList, List.length_map, List.length_range]
    simp only [Bool.not_eq_true, Bool.decide_eq_false] at hsplit
    omega

theorem kinds (e : Entry) : (e.isAny32bit && !e.isSpecific) = e.isAny32bit ∧
    (!e.isAny32bit && !e.isSpecific) = e.isGeneralPurpose := by
  unfold Entry.isAny32bit Entry.isSpecific Entry.isGeneralPurpose
  rcases eq_or_ne e.request .any32bit with h | h
  · rw [h]
    exact ⟨rfl, rfl⟩
  · rw [beq_false_of_ne h, bne, bne, beq_false_of_ne h]
    cases e.request == .anyGeneralPurpose <;> exact ⟨rfl, rfl⟩

section Served

variable {scheduler : SchedulerTimer} {assigned : List (Nat × Config)}

theorem mem_workList {r : Nat} :
    r ∈ workList requests ↔ r ∈ (sorted requests).1 ∨ r ∈ (sorted requests).2 := by
  obtain ⟨h1, h2⟩ := sweep_perm (isAny32bitAt requests) (workList requests)
  rw [sorted, h1.mem_iff, h2.mem_iff, List.mem_filter, List.mem_filter, ← and_or_left]
  cases isAny32bitAt requests r <;> simp

/-- The work list of an accepted list names no timer. -/
theorem Accepted.notSpecific (h : Accepted scheduler requests assigned) :
    ∀ r ∈ workList requests, (entry requests r).isSpecific = false := by
  intro r hr
  rcases mem_workList.mp hr with hr | hr
  · have hmem := (sweep_perm (isAny32bitAt requests) _).1.mem_iff.mp hr
    have hany : (entry requests r).isAny32bit = true := (List.mem_filter.mp hmem).2
    simp only [Entry.isAny32bit, beq_iff_eq] at hany
    simp [Entry.isSpecific, hany]
  · have hgen := h.general r hr
    simp only [Entry.isGeneralPurpose, beq_iff_eq] at hgen
    simp [Entry.isSpecific, hgen]

/-- When the work list names no timer, the second pass leaves the general purpose requests. -/
theorem generalPurpose_perm (h : ∀ r ∈ workList requests, (entry requests r).isSpecific = false) :
    (sorted requests).2.Perm
      ((List.range requests.length).filter fun i => (entry requests i).isGeneralPurpose) := by
  refine (sweep_perm (isAny32bitAt requests) _).2.trans ?_
  refine ((workList_perm h).filter _).trans ?_
  rw [List.filter_filter]
  exact .of_eq (List.filter_congr fun i _ => (kinds (entry requests i)).2)

theorem Accepted.any32bit (h : Accepted scheduler requests assigned) :
    (sorted requests).1.Perm
      ((List.range requests.length).filter fun i => (entry requests i).isAny32bit) := by
  refine (sweep_perm (isAny32bitAt requests) _).1.trans ?_
  refine ((workList_perm h.notSpecific).filter _).trans ?_
  rw [List.filter_filter]
  exact .of_eq (List.filter_congr fun i _ => (kinds (entry requests i)).1)

theorem Accepted.generalPurpose (h : Accepted scheduler requests assigned) :
    (sorted requests).2.Perm
      ((List.range requests.length).filter fun i => (entry requests i).isGeneralPurpose) :=
  generalPurpose_perm h.notSpecific

theorem Accepted.length_any32bit (h : Accepted scheduler requests assigned) :
    (sorted requests).1.length = requests.countP Entry.isAny32bit := by
  rw [h.any32bit.length_eq, ← List.countP_eq_length_filter, countP_entry]

theorem Accepted.length_generalPurpose (h : Accepted scheduler requests assigned) :
    (sorted requests).2.length = requests.countP Entry.isGeneralPurpose := by
  rw [h.generalPurpose.length_eq, ← List.countP_eq_length_filter, countP_entry]

/-- Every request is served once. -/
theorem Accepted.serviceOrder_perm (h : Accepted scheduler requests assigned) :
    (serviceOrder requests).Perm (List.range requests.length) := by
  obtain ⟨h1, h2⟩ := sweep_perm (isAny32bitAt requests) (workList requests)
  have hsorted : ((sorted requests).1 ++ (sorted requests).2).Perm (workList requests) :=
    (h1.append h2).trans (List.filter_append_perm _ _)
  rw [serviceOrder, List.append_assoc]
  exact (hsorted.trans (workList_perm h.notSpecific)).append_left _ |>.trans (List.filter_append_perm _ _)

theorem map_fst_zipWith (requests : List Entry) : ∀ (l : List Nat) (timers : List Nat),
    l.length ≤ timers.length → (List.zipWith (served requests) l timers).map Prod.fst = l
  | [], _, _ => rfl
  | r :: l, [], h => absurd h (by simp)
  | r :: l, t :: timers, h => by
    rw [List.zipWith_cons_cons, List.map_cons, map_fst_zipWith requests l timers (by simpa using h)]
    rfl

theorem Accepted.map_fst (h : Accepted scheduler requests assigned) :
    assigned.map Prod.fst = serviceOrder requests := by
  rw [h.assigned, List.map_append, List.map_append, map_fst_zipWith _ _ _ h.enough, List.map_map,
    List.map_map]
  simp only [Function.comp_def, served, List.map_id_fun', id_eq]
  rfl

end Served

end StLib.Timers.Allocation
