import StLib.Base.RegisterBits
import StLib.Timers.AllocationSafety

/-! # Which lists that could be served are accepted

When each request could have a timer of its own, only two checks of `build` are left to
fail: the one of the pins, and, in the third pass, the one that finds a request that names
its timer, which the unordered remove of the first pass moved to the place of another. -/
namespace StLib.Timers.Completeness

open Base.RegisterBits Base.UnorderedRemove
open Model Allocation AllocationSafety

/-! ## What is claimed -/

/-- A timer that `build` hands out for such a request. -/
structure Suits (scheduler : SchedulerTimer) (e : Entry) (t : Nat) : Prop where
  notScheduler : t ≠ scheduler.value
  specific : e.isSpecific = true → t = e.reqint ∧ timerIdxmap t ≠ -1
  any32bit : e.isAny32bit = true → t ∈ bits32Timers
  generalPurpose : e.isGeneralPurpose = true → t ∈ bits16Timers ++ upDownUpdownTimers ++ bits32Timers

/-- Each request could have a timer of its own. -/
def Feasible (scheduler : SchedulerTimer) (requests : List Entry) : Prop :=
  ∃ timers : List Nat, timers.Nodup ∧ List.Forall₂ (Suits scheduler) requests timers

/-- The list is accepted, and each request is processed once. -/
def Completes (scheduler : SchedulerTimer) (requests : List Entry) : Prop :=
  ∃ assigned, assign scheduler requests = .ok assigned ∧
    (assigned.map Prod.fst).Perm (List.range requests.length)

/-- With `m` requests that name a timer: of the last `m` requests, those that name one come
first. -/
def TailOrdered (requests : List Entry) : Prop :=
  ∀ i j, requests.length - requests.countP Entry.isSpecific ≤ i → i < j → j < requests.length →
    (entry requests i).isSpecific = false → (entry requests j).isSpecific = false

def OnePinPerChannel (requests : List Entry) : Prop := ∀ e ∈ requests, e.pins.Nodup

/-! ## The checks -/

variable {scheduler : SchedulerTimer} {requests : List Entry} {e : Entry} {t : Nat}

theorem value_lt (c : TimerChannel) : c.value < 32 := by
  cases c <;> decide

theorem value_injective {c d : TimerChannel} (h : c.value = d.value) : c = d := by
  cases c <;> cases d <;> first | rfl | cases h

/-- The pins are accepted when their channels differ, among them and from those before. -/
theorem checkPins_ok (pins : List TimerChannel) (used : BitVec 32) :
    checkPins used pins = .ok () ↔ pins.Nodup ∧ ∀ c ∈ pins, used.getLsbD c.value = false := by
  induction pins generalizing used with
  | nil => exact iff_of_true rfl ⟨List.nodup_nil, fun c hc => absurd hc List.not_mem_nil⟩
  | cons c pins ih =>
    have hbit : used &&& bit c.value = 0#32 ↔ used.getLsbD c.value = false :=
      and_bit_eq_zero_iff (value_lt c) used
    have hset : ∀ d : TimerChannel, (used ||| bit c.value).getLsbD d.value = false ↔
        used.getLsbD d.value = false ∧ d ≠ c := by
      intro d
      have hd := getLsbD_setBit (value_lt c) used d.value
      rw [setBit] at hd
      rw [hd, Bool.or_eq_false_iff, decide_eq_false_iff_not]
      exact and_congr_right' (not_congr ⟨value_injective, congrArg _⟩)
    rw [checkPins]
    show (if used &&& bit c.value ≠ 0#32 then _ else checkPins (used ||| bit c.value) pins) = _ ↔ _
    by_cases hfree : used.getLsbD c.value = false
    · rw [if_neg (not_not_intro (hbit.mpr hfree)), ih, List.nodup_cons, List.forall_mem_cons]
      simp only [hset]
      constructor
      · rintro ⟨hnodup, hall⟩
        exact ⟨⟨fun hc => (hall c hc).2 rfl, hnodup⟩, hfree, fun d hd => (hall d hd).1⟩
      · rintro ⟨⟨hc, hnodup⟩, -, hall⟩
        exact ⟨hnodup, fun d hd => ⟨hall d hd, fun he => hc (he ▸ hd)⟩⟩
    · rw [if_pos (mt hbit.mp hfree)]
      refine iff_of_false (fun h => ?_) fun h => hfree (h.2 c List.mem_cons_self)
      cases h

/-- The numbers of the timers that exist. -/
def existingTimers : List Nat := [1, 2, 3, 4, 5, 6, 7, 8, 12, 13, 14, 15, 16, 17, 23, 24]

theorem exists_of_timerIdxmap (h : timerIdxmap t ≠ -1) : t ∈ existingTimers := by
  unfold timerIdxmap at h
  split at h
  all_goals first | decide | exact absurd rfl h

theorem kind_cases (e : Entry) :
    e.isSpecific = true ∨ e.isAny32bit = true ∨ e.isGeneralPurpose = true := by
  rcases eq_or_ne e.request .anyGeneralPurpose with hg | hg
  · exact .inr (.inr (beq_iff_eq.mpr hg))
  · rcases eq_or_ne e.request .any32bit with ha | ha
    · exact .inr (.inl (beq_iff_eq.mpr ha))
    · exact .inl (Bool.and_eq_true_iff.mpr ⟨bne_iff_ne.mpr hg, bne_iff_ne.mpr ha⟩)

theorem Suits.exists (h : Suits scheduler e t) : t ∈ existingTimers := by
  have hall : ∀ t ∈ bits16Timers ++ upDownUpdownTimers ++ bits32Timers, t ∈ existingTimers := by
    decide
  rcases kind_cases e with hs | ha | hg
  · exact exists_of_timerIdxmap (h.specific hs).2
  · exact hall t (List.mem_append_right _ (h.any32bit ha))
  · exact hall t (h.generalPurpose hg)

theorem Suits.valid (h : Suits scheduler e t) :
    e.reqint ≠ scheduler.value ∧ ¬ (e.isSpecific ∧
      (e.reqint < 1 ∨ e.reqint > 24 ∨ (e.reqint > 17 ∧ e.reqint < 23))) := by
  have hexists : ∀ t ∈ existingTimers, ¬ (t < 1 ∨ t > 24 ∨ (t > 17 ∧ t < 23)) := by decide
  have hscheduler : ∀ t ∈ bits32Timers, t ≠ 0 ∧ t ≠ 255 := by decide
  obtain ⟨hne0, hne255⟩ := hscheduler _ scheduler.is32bit
  constructor
  · rcases kind_cases e with hs | ha | hg
    · rw [← (h.specific hs).1]
      exact h.notScheduler
    · rw [Entry.reqint, beq_iff_eq.mp ha]
      exact hne255.symm
    · rw [Entry.reqint, beq_iff_eq.mp hg]
      exact hne0.symm
  · rintro ⟨hs, hout⟩
    rw [← (h.specific hs).1] at hout
    exact hexists t h.exists hout

theorem checkRequest_ok (hs : Suits scheduler e t) :
    checkRequest scheduler e = .ok () ↔ e.pins.Nodup := by
  obtain ⟨hscheduler, hrange⟩ := hs.valid
  rw [checkRequest, if_neg hscheduler, if_neg hrange, checkPins_ok]
  exact and_iff_left fun c _ => BitVec.getLsbD_zero

theorem checkRequests_ok {timers : List Nat} (h : List.Forall₂ (Suits scheduler) requests timers) :
    checkRequests scheduler requests = .ok () ↔ OnePinPerChannel requests := by
  induction h with
  | nil => exact iff_of_true rfl nofun
  | @cons e t requests timers hs _ ih =>
    rw [checkRequests, OnePinPerChannel, List.forall_mem_cons, ← checkRequest_ok hs]
    cases hcheck : checkRequest scheduler e with
    | error m => exact iff_of_false nofun fun hall => nomatch hall.1
    | ok u => exact ih.trans (and_iff_right rfl).symm

/-! ## The passes -/

theorem specificPass_ok {n : Nat} {rest done : List Entry} {l : Locals} (h : Passed n done l)
    (hd : (specificTimers (done ++ rest)).Nodup) :
    ∃ l', specificPass done.length rest l = .ok l' := by
  induction rest generalizing done l with
  | nil => exact ⟨l, rfl⟩
  | cons e rest ih =>
    have hstep : ∃ v, specificStep done.length e l = .ok v := by
      unfold specificStep
      by_cases he : e.isSpecific = true
      · have hfree : l.usedTimers e.reqint = false := by
          rw [h.usedTimers, Bool.eq_false_iff]
          intro hnamed
          rw [specificTimers, List.filter_append, List.filter_cons_of_pos he, List.map_append,
            List.map_cons] at hd
          exact (List.nodup_append.mp hd).2.2 _ (named_iff.mp hnamed) _ List.mem_cons_self rfl
        rw [if_pos he, hfree]
        exact ⟨_, rfl⟩
      · rw [if_neg he]
        exact ⟨_, rfl⟩
    obtain ⟨v, hv⟩ := hstep
    have hlen : (done ++ [e]).length = done.length + 1 := by simp
    obtain ⟨l', hl'⟩ := ih (passed_step h hv) (by simpa using hd)
    rw [hlen] at hl'
    refine ⟨l', ?_⟩
    rw [specificPass, hv]
    exact hl'

theorem any32bitPass_ok {timers : List Nat}
    (h : timers = [] → ∀ i, (entry requests i).isAny32bit = false) (left i : Nat) (l : Locals) :
    ∃ l', any32bitPass requests timers left i l = .ok l' := by
  induction left generalizing i l with
  | zero => exact ⟨l, rfl⟩
  | succ left ih =>
    unfold any32bitPass
    by_cases hany : (entry requests (l.remaining i)).isAny32bit = true
    · have hne : ¬ timers.length ≤ count32bitRequests := fun hle => by
        have hnil : timers = [] := List.length_eq_zero_iff.mp (Nat.le_zero.mp hle)
        rw [h hnil] at hany
        cases hany
      simp only [hany, if_true, if_neg hne]
      exact ih i _
    · simp only [hany]
      exact ih (i + 1) l

theorem generalPass_ok (timers : List Nat) {left i : Nat} {l : Locals}
    (h : ∀ r ∈ window l.remaining i left, (entry requests r).isGeneralPurpose = true) :
    ∃ l', generalPass requests timers left i l = .ok l' := by
  induction left generalizing i l with
  | zero => exact ⟨l, rfl⟩
  | succ left ih =>
    rw [window_succ] at h
    obtain ⟨hgen, h⟩ := List.forall_mem_cons.mp h
    unfold generalPass
    simp only [hgen, if_true]
    exact ih h

/-- A list is accepted when no check of `build` fails. -/
theorem assign_ok (hsize : requests.length ≤ maxInstances)
    (hchecked : checkRequests scheduler requests = .ok ())
    (hdistinct : (specificTimers requests).Nodup)
    (hsome : any32bitTimers scheduler requests = [] → ∀ i, (entry requests i).isAny32bit = false)
    (henough : (sorted requests).2.length ≤ (candidates requests).length)
    (hgeneral : ∀ r ∈ (sorted requests).2, (entry requests r).isGeneralPurpose = true) :
    ∃ assigned, assign scheduler requests = .ok assigned := by
  have hstart : Passed requests.length [] { count := requests.length } :=
    ⟨rfl, rfl, List.nodup_nil, rfl, fun _ _ => rfl⟩
  obtain ⟨specific, hspecific⟩ := specificPass_ok hstart hdistinct
  rw [List.length_nil] at hspecific
  have hpassed := passed_all hspecific
  obtain ⟨any, hany⟩ := any32bitPass_ok hsome specific.count 0 specific
  obtain ⟨hswept, hcandidates⟩ := swept_all hpassed hany
  have hcount : any.count = (sorted requests).2.length := hswept.count.trans (Nat.zero_add _)
  have hwindow : window any.remaining 0 any.count = (sorted requests).2 := by
    rw [hcount]
    exact hswept.window
  rw [← hwindow] at hgeneral
  obtain ⟨all, hall⟩ := generalPass_ok (remainingTimers any) hgeneral
  refine ⟨all.cfgs, ?_⟩
  unfold assign
  rw [if_neg (Nat.not_lt.mpr hsize)]
  show (checkRequests scheduler requests).bind _ = _
  rw [hchecked]
  show (specificPass 0 requests _).bind _ = _
  rw [hspecific]
  show (any32bitPass requests _ specific.count 0 specific).bind _ = _
  rw [remaining32bitTimers_eq hpassed, hany]
  show (if any.count > (remainingTimers any).length then _ else
    (generalPass requests (remainingTimers any) any.count 0 any).bind _) = _
  rw [hcandidates] at hall ⊢
  rw [if_neg (Nat.not_lt.mpr (hcount ▸ henough)), hall]
  rfl

/-! ## The work list -/

theorem exists_rank (requests : List Entry) {k : Nat} (hk : k ≠ 0) : ∀ n ≤ requests.length,
    k ≤ (requests.take n).countP Entry.isSpecific →
    ∃ j < n, (entry requests j).isSpecific = true ∧
      (requests.take (j + 1)).countP Entry.isSpecific = k := by
  intro n
  induction n with
  | zero => exact fun _ hle => absurd (Nat.le_zero.mp hle) hk
  | succ n ih =>
    intro hn hle
    by_cases hs : (entry requests n).isSpecific = true
    · by_cases heq : (requests.take (n + 1)).countP Entry.isSpecific = k
      · exact ⟨n, Nat.lt_succ_self n, hs, heq⟩
      · have hrank := rank_succ hs
        obtain ⟨j, hj, hfound⟩ := ih (Nat.le_of_succ_le hn) (by omega)
        exact ⟨j, Nat.lt_succ_of_lt hj, hfound⟩
    · have hget : requests[n].isSpecific = false := by
        simpa [entry, Nat.lt_of_succ_le hn] using hs
      rw [List.take_succ_eq_append_getElem (Nat.lt_of_succ_le hn), List.countP_append,
        List.countP_singleton, if_neg (by rw [hget]; exact Bool.false_ne_true), Nat.add_zero] at hle
      obtain ⟨j, hj, hfound⟩ := ih (Nat.le_of_succ_le hn) hle
      exact ⟨j, Nat.lt_succ_of_lt hj, hfound⟩

/-- Requests that all name a timer raise the rank by their number. -/
theorem rank_add {i : Nat} : ∀ k, (∀ j, i ≤ j → j < i + k → (entry requests j).isSpecific = true) →
    (requests.take (i + k)).countP Entry.isSpecific = (requests.take i).countP Entry.isSpecific + k
  | 0, _ => rfl
  | k + 1, h => by
    have hk := rank_add k fun j hi hj => h j hi (by omega)
    rw [← Nat.add_assoc, rank_succ (h (i + k) (by omega) (by omega)), hk]
    rfl

/-- **The work list** names no timer exactly when the end of the list is in order. -/
theorem tailOrdered_iff (requests : List Entry) :
    TailOrdered requests ↔ ∀ r ∈ workList requests, (entry requests r).isSpecific = false := by
  have hm := List.countP_le_length (p := Entry.isSpecific) (l := requests)
  constructor
  · intro h r hr
    obtain ⟨j, hj, rfl⟩ := List.mem_map.mp hr
    have hj' := List.mem_range.mp hj
    cases hs : (entry requests j).isSpecific with
    | false => rwa [if_neg nofun]
    | true =>
      rw [if_pos rfl]
      by_contra hmoved
      rw [Bool.not_eq_false] at hmoved
      -- then the whole end up to the moved request names timers, too many of them
      have hrank := rank_le requests j
      have hpos := rank_succ hs
      obtain ⟨k, hk⟩ : ∃ k, k + (requests.take (j + 1)).countP Entry.isSpecific =
          requests.countP Entry.isSpecific := ⟨_, Nat.sub_add_cancel hrank⟩
      have hall : ∀ i, requests.length - requests.countP Entry.isSpecific ≤ i →
          i < requests.length - requests.countP Entry.isSpecific + (k + 1) →
          (entry requests i).isSpecific = true := by
        intro i hge hlt
        by_contra hi
        rw [Bool.not_eq_true] at hi
        rcases Nat.lt_or_ge i
          (requests.length - (requests.take (j + 1)).countP Entry.isSpecific) with hbefore | hafter
        · have hlater := h i _ hge hbefore (by omega) hi
          rw [hmoved] at hlater
          cases hlater
        · have hsame : i = requests.length - (requests.take (j + 1)).countP Entry.isSpecific := by
            omega
          rw [← hsame, hi] at hmoved
          cases hmoved
      have hadd := rank_add (k + 1) hall
      have hmono : (requests.take (j + 1)).countP Entry.isSpecific ≤
          (requests.take (requests.length - requests.countP Entry.isSpecific)).countP
            Entry.isSpecific :=
        (List.take_sublist_take_left (by omega)).countP_le
      have hbound : (requests.take (requests.length - requests.countP Entry.isSpecific +
          (k + 1))).countP Entry.isSpecific ≤ requests.countP Entry.isSpecific :=
        (List.take_sublist _ _).countP_le
      omega
  · intro h i j hi hij hj hfree
    by_contra hs
    rw [Bool.not_eq_false] at hs
    -- the free request is in the list, moved to the place of one that names a timer
    have hmem : i ∈ workList requests := by
      refine (workList_perm h).mem_iff.mpr (List.mem_filter.mpr ⟨?_, by rw [hfree]; rfl⟩)
      exact List.mem_range.mpr (hij.trans hj)
    obtain ⟨p, hp, hpi⟩ := List.mem_map.mp hmem
    have hp' := List.mem_range.mp hp
    cases hsp : (entry requests p).isSpecific with
    | false =>
      rw [hsp, if_neg nofun] at hpi
      omega
    | true =>
      rw [hsp, if_pos rfl] at hpi
      have hrank := rank_le requests p
      obtain ⟨q, hq, hsq, hrq⟩ := exists_rank requests (k := requests.length - j) (by omega) (p + 1) (by omega)
        (by omega)
      have hmoved : j ∈ workList requests := by
        refine List.mem_map.mpr ⟨q, List.mem_range.mpr (by omega), ?_⟩
        rw [if_pos hsq, hrq]
        omega
      rw [h j hmoved] at hs
      cases hs

/-! ## Lists that could be served -/

section Feasible

variable {timers : List Nat}

theorem suits_of_mem_zip (h : List.Forall₂ (Suits scheduler) requests timers) :
    ∀ p ∈ requests.zip timers, Suits scheduler p.1 p.2 :=
  fun _ hp => (List.forall₂_iff_zip.mp h).2 hp

/-- The requests and their timers. -/
theorem map_zip (h : List.Forall₂ (Suits scheduler) requests timers) :
    (requests.zip timers).map Prod.fst = requests ∧
      (requests.zip timers).map Prod.snd = timers :=
  ⟨List.map_fst_zip h.length_eq.le, List.map_snd_zip h.length_eq.ge⟩

theorem length_le (h : List.Forall₂ (Suits scheduler) requests timers) (hd : timers.Nodup) :
    requests.length ≤ maxInstances := by
  have hsub : ∀ t ∈ timers, t ∈ existingTimers := by
    intro t ht
    rw [← (map_zip h).2] at ht
    obtain ⟨p, hp, rfl⟩ := List.mem_map.mp ht
    exact (suits_of_mem_zip h p hp).exists
  rw [h.length_eq]
  exact (List.subperm_of_subset hd hsub).length_le

theorem specificTimers_nodup (h : List.Forall₂ (Suits scheduler) requests timers)
    (hd : timers.Nodup) : (specificTimers requests).Nodup := by
  have hsame : specificTimers requests =
      ((requests.zip timers).filter fun p => p.1.isSpecific).map Prod.snd := by
    calc specificTimers requests
        = ((((requests.zip timers).map Prod.fst).filter Entry.isSpecific).map Entry.reqint) := by
          rw [(map_zip h).1, specificTimers]
      _ = ((requests.zip timers).filter fun p => p.1.isSpecific).map fun p => p.1.reqint := by
          rw [List.filter_map, List.map_map]
          rfl
      _ = _ := List.map_congr_left fun p hp => by
          obtain ⟨hmem, hs⟩ := List.mem_filter.mp hp
          exact ((suits_of_mem_zip h p hmem).specific hs).1.symm
  rw [hsame]
  refine List.Nodup.sublist (List.filter_sublist.map _) ?_
  rwa [(map_zip h).2]

/-- The timer of a request that names none is named by no other. -/
theorem not_named (h : List.Forall₂ (Suits scheduler) requests timers) (hd : timers.Nodup)
    {p : Entry × Nat} (hp : p ∈ requests.zip timers) (hs : p.1.isSpecific = false) :
    named requests p.2 = false := by
  rw [Bool.eq_false_iff]
  intro hnamed
  obtain ⟨e, he, hboth⟩ := List.any_eq_true.mp hnamed
  obtain ⟨hes, het⟩ := Bool.and_eq_true_iff.mp hboth
  rw [← (map_zip h).1] at he
  obtain ⟨q, hq, rfl⟩ := List.mem_map.mp he
  have htimer : q.2 = p.2 :=
    ((suits_of_mem_zip h q hq).specific hes).1.trans (beq_iff_eq.mp het)
  rw [← (map_zip h).2] at hd
  obtain rfl := List.inj_on_of_nodup_map hd hq hp htimer
  rw [hs] at hes
  cases hes

theorem countP_general_le (h : List.Forall₂ (Suits scheduler) requests timers)
    (hd : timers.Nodup) : requests.countP Entry.isGeneralPurpose ≤ (candidates requests).length := by
  have hcount : requests.countP Entry.isGeneralPurpose =
      (((requests.zip timers).filter fun p => p.1.isGeneralPurpose).map Prod.snd).length := by
    rw [List.length_map, ← List.countP_eq_length_filter]
    conv_lhs => rw [← (map_zip h).1, List.countP_map]
    rfl
  have hnodup : (((requests.zip timers).filter fun p => p.1.isGeneralPurpose).map Prod.snd).Nodup := by
    refine List.Nodup.sublist (List.filter_sublist.map _) ?_
    rwa [(map_zip h).2]
  rw [hcount]
  refine (List.subperm_of_subset hnodup fun t ht => ?_).length_le
  obtain ⟨p, hp, rfl⟩ := List.mem_map.mp ht
  obtain ⟨hmem, hg⟩ := List.mem_filter.mp hp
  have hs : p.1.isSpecific = false := by
    have hk := (kinds p.1).2
    rw [hg] at hk
    simpa using (Bool.and_eq_true_iff.mp hk).2
  refine List.mem_filter.mpr ⟨(suits_of_mem_zip h p hmem).generalPurpose hg, ?_⟩
  rw [not_named h hd hmem hs]
  rfl

theorem any32bitTimers_ne_nil (h : List.Forall₂ (Suits scheduler) requests timers)
    (hd : timers.Nodup) (he : e ∈ requests) (ha : e.isAny32bit = true) :
    any32bitTimers scheduler requests ≠ [] := by
  rw [← (map_zip h).1] at he
  obtain ⟨p, hp, rfl⟩ := List.mem_map.mp he
  have hs : p.1.isSpecific = false := by
    have hk := (kinds p.1).1
    rw [ha] at hk
    simpa using (Bool.and_eq_true_iff.mp hk).2
  have hsuits := suits_of_mem_zip h p hp
  refine List.ne_nil_of_mem (List.mem_filter.mpr ⟨hsuits.any32bit ha, ?_⟩)
  rw [not_named h hd hp hs]
  exact bne_iff_ne.mpr hsuits.notScheduler

end Feasible

/-! ## Main result -/

/-- A request in the list, or none. -/
theorem entry_cases (requests : List Entry) (i : Nat) :
    entry requests i ∈ requests ∨ entry requests i = default := by
  rcases Nat.lt_or_ge i requests.length with hi | hi
  · left
    simp [entry, hi]
  · right
    simp [entry, hi]

theorem sorted_general (h : ∀ r ∈ workList requests, (entry requests r).isSpecific = false) :
    (sorted requests).2.length = requests.countP Entry.isGeneralPurpose ∧
      ∀ r ∈ (sorted requests).2, (entry requests r).isGeneralPurpose = true := by
  have hperm := generalPurpose_perm h
  constructor
  · rw [hperm.length_eq, ← List.countP_eq_length_filter, countP_entry]
  · exact fun r hr => (List.mem_filter.mp (hperm.mem_iff.mp hr)).2

/-- **Completeness.** A list that could be served is accepted, and each request processed once,
exactly when no request has two pins on one channel and the end of the list is in order. -/
theorem build_completes_iff (scheduler : SchedulerTimer) (requests : List Entry)
    (hf : Feasible scheduler requests) :
    Completes scheduler requests ↔ OnePinPerChannel requests ∧ TailOrdered requests := by
  obtain ⟨timers, hd, h⟩ := hf
  rw [tailOrdered_iff, ← checkRequests_ok h]
  constructor
  · rintro ⟨assigned, hassign, -⟩
    refine ⟨?_, (accepted hassign).notSpecific⟩
    unfold assign at hassign
    rw [if_neg (Nat.not_lt.mpr (length_le h hd))] at hassign
    obtain ⟨u, hchecked, -⟩ := bind_ok hassign
    exact hchecked
  · rintro ⟨hchecked, hwork⟩
    obtain ⟨hlength, hgeneral⟩ := sorted_general hwork
    have hsome : any32bitTimers scheduler requests = [] →
        ∀ i, (entry requests i).isAny32bit = false := by
      intro hnil i
      rw [Bool.eq_false_iff]
      intro ha
      rcases entry_cases requests i with he | he
      · exact any32bitTimers_ne_nil h hd he ha hnil
      · rw [he] at ha
        cases ha
    obtain ⟨assigned, hassign⟩ := assign_ok (length_le h hd) hchecked (specificTimers_nodup h hd)
      hsome (hlength ▸ countP_general_le h hd) hgeneral
    have hperm := (accepted hassign).serviceOrder_perm
    rw [← (accepted hassign).map_fst] at hperm
    exact ⟨assigned, hassign, hperm⟩

/-- A named timer before two requests for any. -/
theorem build_completes_iff_named : Completes {} [{ request := 3#8 }, {}, {}] ↔
    OnePinPerChannel [{ request := 3#8 }, {}, {}] ∧ TailOrdered [{ request := 3#8 }, {}, {}] := by
  refine build_completes_iff {} _ ⟨[3, 15, 16], by decide, ?_⟩
  have hspecific : Suits {} { request := 3#8 } 3 := ⟨by decide, by decide, by decide, by decide⟩
  have hgeneral : ∀ t ∈ [15, 16], Suits {} {} t := by
    intro t ht
    rcases List.mem_cons.mp ht with rfl | ht
    · exact ⟨by decide, by decide, by decide, by decide⟩
    · obtain rfl := List.mem_singleton.mp ht
      exact ⟨by decide, by decide, by decide, by decide⟩
  exact .cons hspecific (.cons (hgeneral 15 (by decide)) (.cons (hgeneral 16 (by decide)) .nil))

/-- A request for any timer between two that name theirs is rejected. -/
theorem between_rejected :
    ¬ ∀ scheduler requests, Feasible scheduler requests → Completes scheduler requests := by
  intro hall
  have hfirst : Suits {} { request := 3#8 } 3 := ⟨by decide, by decide, by decide, by decide⟩
  have hany : Suits {} {} 15 := ⟨by decide, by decide, by decide, by decide⟩
  have hlast : Suits {} { request := 4#8 } 4 := ⟨by decide, by decide, by decide, by decide⟩
  obtain ⟨assigned, hassign, -⟩ := hall {} [{ request := 3#8 }, {}, { request := 4#8 }]
    ⟨[3, 15, 4], by decide, .cons hfirst (.cons hany (.cons hlast .nil))⟩
  have hrejected : assign {} [{ request := 3#8 }, {}, { request := 4#8 }] =
      .error "This only processes TimerRequest::AnyGeneralPurpose" := rfl
  rw [hrejected] at hassign
  cases hassign

end StLib.Timers.Completeness
