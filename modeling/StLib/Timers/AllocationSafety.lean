import StLib.Timers.Allocation

/-! # When the timers of an accepted list are safe

`Any32bit` requests all read the same entry of the list of 32 bit timers, which stay in
the list for the general purpose requests, as does the scheduler's. -/
namespace StLib.Timers.AllocationSafety

open Model
open Base.UnorderedRemove
open Allocation

/-- No two peripherals share a timer, and none has the scheduler's. -/
structure Safe (scheduler : SchedulerTimer) (requests : List Entry)
    (assigned : List (Nat × Config)) : Prop where
  served : (assigned.map Prod.fst).Perm (List.range requests.length)
  distinct : (assigned.map fun a => a.2.timerIdx).Nodup
  any32bit : ∀ a ∈ assigned, (entry requests a.1).isAny32bit = true →
    a.2.timerIdx ∈ bits32Timers.map timerIdxmap
  scheduler : timerIdxmap scheduler.value ∉ assigned.map fun a => a.2.timerIdx

/-- A number between 1 and 24 that no timer has. -/
def isMissing (e : Entry) : Bool := [9, 10, 11].contains e.reqint

/-- The general purpose requests leave the scheduler's timer, and the timer of the one
`Any32bit` request. -/
structure Allotted (scheduler : SchedulerTimer) (requests : List Entry) : Prop where
  any32bit : requests.countP Entry.isAny32bit ≤ 1
  missing : requests.countP isMissing ≤ 1
  scheduler : requests.countP Entry.isGeneralPurpose ≤
    (candidates requests).idxOf scheduler.value
  reserved : 0 < requests.countP Entry.isAny32bit →
    requests.countP Entry.isGeneralPurpose ≤
      ((bits16Timers ++ upDownUpdownTimers).filter fun t => !named requests t).length

/-! ## Timer numbers -/

theorem timerIdxmap_eq {t u : Nat} (ht : t ≤ 24) (hu : u ≤ 24)
    (h : timerIdxmap t = timerIdxmap u) : t = u ∨ timerIdxmap t = -1 := by
  have hall : ∀ t < 25, ∀ u < 25, timerIdxmap t = timerIdxmap u → t = u ∨ timerIdxmap t = -1 := by
    decide
  exact hall t (by omega) u (by omega) h

theorem timerIdxmap_missing {t : Nat} (h1 : t ≠ 0) (ht : t ≤ 24) (hmid : ¬ (t > 17 ∧ t < 23)) :
    timerIdxmap t = -1 ↔ [9, 10, 11].contains t = true := by
  have hall : ∀ t < 25, t ≠ 0 → ¬ (t > 17 ∧ t < 23) →
      (timerIdxmap t = -1 ↔ [9, 10, 11].contains t = true) := by decide
  exact hall t (by omega) h1 hmid

theorem candidate_le {requests : List Entry} {t : Nat} (h : t ∈ candidates requests) :
    t ≤ 24 ∧ timerIdxmap t ≠ -1 := by
  have hall : ∀ t ∈ bits16Timers ++ upDownUpdownTimers ++ bits32Timers,
      t ≤ 24 ∧ timerIdxmap t ≠ -1 := by decide
  exact hall t (List.mem_filter.mp h).1

theorem any32bitTimer_mem {scheduler : SchedulerTimer} {requests : List Entry} {t : Nat}
    (h : t ∈ any32bitTimers scheduler requests) :
    t ∈ bits32Timers ∧ t ∈ candidates requests ∧ t ≠ scheduler.value := by
  obtain ⟨h32, hfree⟩ := List.mem_filter.mp h
  obtain ⟨hnamed, hne⟩ := Bool.and_eq_true_iff.mp hfree
  exact ⟨h32, List.mem_filter.mpr ⟨List.mem_append_right _ h32, hnamed⟩, by simpa using hne⟩

theorem candidates_nodup (requests : List Entry) : (candidates requests).Nodup :=
  List.Nodup.filter _ (by decide)

variable {scheduler : SchedulerTimer} {requests : List Entry} {assigned : List (Nat × Config)}

/-- The numbers that the requests name. -/
def specificTimers (requests : List Entry) : List Nat :=
  (requests.filter Entry.isSpecific).map Entry.reqint

/-- The timer that every `Any32bit` request is given. -/
def any32bitTimer (scheduler : SchedulerTimer) (requests : List Entry) : Nat :=
  (any32bitTimers scheduler requests).getD 0 0

theorem any32bitTimer_spec (h : Accepted scheduler requests assigned)
    (hany : 0 < requests.countP Entry.isAny32bit) :
    any32bitTimer scheduler requests ∈ any32bitTimers scheduler requests := by
  have hne : any32bitTimers scheduler requests ≠ [] := h.some fun hnil => by
    rw [← h.length_any32bit, hnil] at hany
    exact Nat.lt_irrefl 0 hany
  unfold any32bitTimer
  cases hl : any32bitTimers scheduler requests with
  | nil => exact absurd hl hne
  | cons t rest => exact List.mem_cons_self

theorem named_iff {t : Nat} : named requests t = true ↔ t ∈ specificTimers requests := by
  simp only [named, specificTimers, List.any_eq_true, List.mem_map, List.mem_filter,
    Bool.and_eq_true, beq_iff_eq]
  constructor
  · rintro ⟨e, he, hs, ht⟩
    exact ⟨e, ⟨he, hs⟩, ht⟩
  · rintro ⟨e, ⟨he, hs⟩, ht⟩
    exact ⟨e, he, hs, ht⟩

theorem candidate_not_named {t : Nat} (h : t ∈ candidates requests) :
    t ∉ specificTimers requests := by
  have hfree := (List.mem_filter.mp h).2
  rw [← named_iff]
  simpa using hfree

/-! ## The timers of an accepted list -/

theorem specific_timers (requests : List Entry) :
    (specificOrder requests).map (fun i => timerIdxmap (entry requests i).reqint) =
      (specificTimers requests).map timerIdxmap := by
  calc (specificOrder requests).map (fun i => timerIdxmap (entry requests i).reqint)
      = ((List.range requests.length).filter (Entry.isSpecific ∘ entry requests)).map
          ((timerIdxmap ∘ Entry.reqint) ∘ entry requests) := rfl
    _ = (((List.range requests.length).map (entry requests)).filter Entry.isSpecific).map
          (timerIdxmap ∘ Entry.reqint) := by rw [List.filter_map, List.map_map]
    _ = (specificTimers requests).map timerIdxmap := by
        rw [map_entry, specificTimers, List.map_map]

theorem general_timers (requests : List Entry) : ∀ (l timers : List Nat),
    (List.zipWith (served requests) l timers).map (fun a => a.2.timerIdx) =
      (timers.take l.length).map timerIdxmap
  | [], _ => by simp
  | _ :: _, [] => rfl
  | r :: l, t :: timers => by
    rw [List.zipWith_cons_cons, List.map_cons, general_timers requests l timers]
    rfl

theorem assigned_timers (h : Accepted scheduler requests assigned) :
    assigned.map (fun a => a.2.timerIdx) =
      (specificTimers requests).map timerIdxmap ++
        List.replicate (requests.countP Entry.isAny32bit)
          (timerIdxmap (any32bitTimer scheduler requests)) ++
        ((candidates requests).take (requests.countP Entry.isGeneralPurpose)).map timerIdxmap := by
  rw [h.assigned, List.map_append, List.map_append, general_timers, List.map_map, List.map_map,
    h.length_generalPurpose, ← specific_timers, ← h.length_any32bit]
  congr 2
  exact List.map_const' ..

/-! ## Distinctness -/

theorem eq_of_mem_short {α : Type} {l : List α} {a b : α} (h : l.length ≤ 1) (ha : a ∈ l)
    (hb : b ∈ l) : a = b := by
  match l with
  | [] => cases ha
  | [c] => rw [List.mem_singleton.mp ha, List.mem_singleton.mp hb]
  | c :: d :: rest =>
    simp only [List.length_cons] at h
    omega

/-- The named timers have an index each, but for the missing ones. -/
theorem specific_distinct (h : Accepted scheduler requests assigned) :
    ((specificTimers requests).map timerIdxmap).Nodup ↔ requests.countP isMissing ≤ 1 := by
  have hvalid : ∀ t ∈ specificTimers requests,
      t ≤ 24 ∧ (timerIdxmap t = -1 ↔ [9, 10, 11].contains t = true) := by
    intro t ht
    obtain ⟨e, he, rfl⟩ := List.mem_map.mp ht
    obtain ⟨hmem, hspec⟩ := List.mem_filter.mp he
    obtain ⟨hle, hmid⟩ := (h.valid e hmem).inRange hspec
    refine ⟨hle, timerIdxmap_missing (fun h0 => ?_) hle hmid⟩
    have hreq : e.request = .anyGeneralPurpose := BitVec.eq_of_toNat_eq h0
    rw [Entry.isSpecific, hreq] at hspec
    cases hspec
  have hcount : requests.countP isMissing =
      ((specificTimers requests).filter fun t => [9, 10, 11].contains t).length := by
    rw [← List.countP_eq_length_filter, specificTimers, List.countP_map, List.countP_filter]
    refine List.countP_congr fun e _ => ?_
    show isMissing e = true ↔ (isMissing e && e.isSpecific) = true
    rw [Bool.and_eq_true, and_iff_left_of_imp]
    intro hm
    have hne : e.reqint ≠ 0 ∧ e.reqint ≠ 255 := by
      constructor <;> (intro h0; rw [isMissing, h0] at hm; cases hm)
    rw [Entry.isSpecific, Bool.and_eq_true, bne_iff_ne, bne_iff_ne]
    exact ⟨fun he => hne.1 (by rw [Entry.reqint, he]; rfl), fun he => hne.2 (by rw [Entry.reqint, he]; rfl)⟩
  rw [hcount]
  constructor
  · -- the missing ones all map to -1
    intro hnodup
    have hsub := (List.filter_sublist (p := fun t => [9, 10, 11].contains t)
      (l := specificTimers requests)).map timerIdxmap
    have hconst : ((specificTimers requests).filter fun t => [9, 10, 11].contains t).map timerIdxmap =
        List.replicate ((specificTimers requests).filter fun t => [9, 10, 11].contains t).length (-1) := by
      refine List.eq_replicate_iff.mpr ⟨by simp, fun i hi => ?_⟩
      obtain ⟨t, ht, rfl⟩ := List.mem_map.mp hi
      obtain ⟨hmem, hmiss⟩ := List.mem_filter.mp ht
      exact (hvalid t hmem).2.mpr hmiss
    have hn := hnodup.sublist hsub
    rw [hconst] at hn
    exact List.nodup_replicate.mp hn
  · intro hshort
    refine List.Nodup.map_on (fun t ht u hu htu => ?_) h.distinct
    rcases timerIdxmap_eq (hvalid t ht).1 (hvalid u hu).1 htu with rfl | hmiss
    · rfl
    · exact eq_of_mem_short hshort
        (List.mem_filter.mpr ⟨ht, (hvalid t ht).2.mp hmiss⟩)
        (List.mem_filter.mpr ⟨hu, (hvalid u hu).2.mp (htu ▸ hmiss)⟩)

theorem specific_le (h : Accepted scheduler requests assigned) :
    ∀ t ∈ specificTimers requests, t ≤ 24 ∧ t ≠ scheduler.value := by
  intro t ht
  obtain ⟨e, he, rfl⟩ := List.mem_map.mp ht
  obtain ⟨hmem, hspec⟩ := List.mem_filter.mp he
  exact ⟨((h.valid e hmem).inRange hspec).1, (h.valid e hmem).notScheduler⟩

/-- A candidate has its index for itself. -/
theorem candidate_index {t u : Nat} (ht : t ∈ candidates requests) (hu : u ≤ 24)
    (h : timerIdxmap u = timerIdxmap t) : u = t := by
  obtain ⟨hle, hne⟩ := candidate_le ht
  rcases timerIdxmap_eq hu hle h with rfl | hmiss
  · rfl
  · exact absurd (h ▸ hmiss) hne

theorem candidate_free (h : Accepted scheduler requests assigned) {t : Nat}
    (ht : t ∈ candidates requests) : timerIdxmap t ∉ (specificTimers requests).map timerIdxmap := by
  intro hm
  obtain ⟨u, hu, hidx⟩ := List.mem_map.mp hm
  exact candidate_not_named ht (candidate_index ht (specific_le h u hu).1 hidx ▸ hu)

theorem scheduler_candidate (h : Accepted scheduler requests assigned) :
    scheduler.value ∈ candidates requests := by
  refine List.mem_filter.mpr ⟨List.mem_append_right _ scheduler.is32bit, ?_⟩
  cases hn : named requests scheduler.value with
  | false => rfl
  | true => exact absurd rfl (specific_le h _ (named_iff.mp hn)).2

theorem distinct_iff (h : Accepted scheduler requests assigned) :
    (assigned.map fun a => a.2.timerIdx).Nodup ↔
      requests.countP isMissing ≤ 1 ∧ requests.countP Entry.isAny32bit ≤ 1 ∧
        (0 < requests.countP Entry.isAny32bit → any32bitTimer scheduler requests ∉
          (candidates requests).take (requests.countP Entry.isGeneralPurpose)) := by
  have htake : ∀ t ∈ (candidates requests).take (requests.countP Entry.isGeneralPurpose),
      t ∈ candidates requests := fun t ht => List.mem_of_mem_take ht
  have hany : ∀ i ∈ List.replicate (requests.countP Entry.isAny32bit)
      (timerIdxmap (any32bitTimer scheduler requests)),
      0 < requests.countP Entry.isAny32bit ∧ i = timerIdxmap (any32bitTimer scheduler requests) :=
    fun i hi => ⟨Nat.pos_of_ne_zero (List.mem_replicate.mp hi).1, (List.mem_replicate.mp hi).2⟩
  have hgeneral : (((candidates requests).take
      (requests.countP Entry.isGeneralPurpose)).map timerIdxmap).Nodup :=
    List.Nodup.map_on
      (fun t ht u hu htu => candidate_index (htake u hu) (candidate_le (htake t ht)).1 htu)
      ((candidates_nodup requests).sublist (List.take_sublist _ _))
  rw [assigned_timers h, List.nodup_append, List.nodup_append, List.nodup_replicate, specific_distinct h]
  constructor
  · rintro ⟨⟨hmiss, hone, -⟩, -, hdis⟩
    refine ⟨hmiss, hone, fun hpos ht => ?_⟩
    refine hdis _ (List.mem_append_right _ (List.mem_replicate.mpr ⟨Nat.ne_of_gt hpos, rfl⟩)) _
      (List.mem_map_of_mem ht) rfl
  · rintro ⟨hmiss, hone, hfree⟩
    refine ⟨⟨hmiss, hone, fun a ha b hb hab => ?_⟩, hgeneral, fun a ha b hb hab => ?_⟩
    · obtain ⟨hpos, rfl⟩ := hany b hb
      exact candidate_free h (any32bitTimer_mem (any32bitTimer_spec h hpos)).2.1 (hab ▸ ha)
    · obtain ⟨t, ht, rfl⟩ := List.mem_map.mp hb
      rcases List.mem_append.mp ha with ha | ha
      · exact candidate_free h (htake t ht) (hab ▸ ha)
      · obtain ⟨hpos, rfl⟩ := hany a ha
        have hmem := (any32bitTimer_mem (any32bitTimer_spec h hpos)).2.1
        exact hfree hpos (candidate_index (htake t ht) (candidate_le hmem).1 hab ▸ ht)

theorem scheduler_iff (h : Accepted scheduler requests assigned) :
    timerIdxmap scheduler.value ∉ assigned.map (fun a => a.2.timerIdx) ↔
      scheduler.value ∉ (candidates requests).take (requests.countP Entry.isGeneralPurpose) := by
  have hs := scheduler_candidate h
  rw [assigned_timers h, not_iff_not]
  constructor
  · intro hm
    rcases List.mem_append.mp hm with hm | hm
    · rcases List.mem_append.mp hm with hm | hm
      · exact absurd hm (candidate_free h hs)
      · obtain ⟨hpos, heq⟩ := List.mem_replicate.mp hm
        have hany := any32bitTimer_mem (any32bitTimer_spec h (Nat.pos_of_ne_zero hpos))
        exact absurd (candidate_index hs (candidate_le hany.2.1).1 heq.symm) hany.2.2
    · obtain ⟨t, ht, heq⟩ := List.mem_map.mp hm
      exact candidate_index hs (candidate_le (List.mem_of_mem_take ht)).1 heq ▸ ht
  · exact fun hm => List.mem_append_right _ (List.mem_map_of_mem hm)

/-- An `Any32bit` request is given a 32 bit timer. -/
theorem any32bit_served (h : Accepted scheduler requests assigned) :
    ∀ a ∈ assigned, (entry requests a.1).isAny32bit = true →
      a.2.timerIdx ∈ bits32Timers.map timerIdxmap := by
  intro a ha hany
  rw [h.assigned] at ha
  rcases List.mem_append.mp ha with ha | ha
  · rcases List.mem_append.mp ha with ha | ha
    · obtain ⟨i, hi, rfl⟩ := List.mem_map.mp ha
      have hk := (kinds (entry requests i)).1
      have hspec : (entry requests i).isSpecific = true := (List.mem_filter.mp hi).2
      change (entry requests i).isAny32bit = true at hany
      rw [hany, hspec] at hk
      cases hk
    · obtain ⟨r, hr, rfl⟩ := List.mem_map.mp ha
      have hpos : 0 < requests.countP Entry.isAny32bit := by
        rw [← h.length_any32bit]
        exact List.length_pos_of_mem hr
      exact List.mem_map_of_mem (any32bitTimer_mem (any32bitTimer_spec h hpos)).1
  · obtain ⟨r, t, hr, rfl⟩ : ∃ r t, r ∈ (sorted requests).2 ∧ a = served requests r t := by
      obtain ⟨n, hn, rfl⟩ := List.mem_iff_getElem.mp ha
      rw [List.getElem_zipWith]
      exact ⟨_, _, List.getElem_mem _, rfl⟩
    have hk := (kinds (entry requests r)).2
    change (entry requests r).isAny32bit = true at hany
    rw [hany, h.general r hr] at hk
    cases hk

/-! ## The general purpose requests -/

/-- The first 32 bit candidate is the scheduler's timer or the `Any32bit` requests'. -/
theorem reserved_iff (h : Accepted scheduler requests assigned)
    (hany : 0 < requests.countP Entry.isAny32bit) (k : Nat) :
    (scheduler.value ∉ (candidates requests).take k ∧
      any32bitTimer scheduler requests ∉ (candidates requests).take k) ↔
    k ≤ ((bits16Timers ++ upDownUpdownTimers).filter fun t => !named requests t).length := by
  have hsplit : candidates requests =
      (bits16Timers ++ upDownUpdownTimers).filter (fun t => !named requests t) ++
        bits32Timers.filter fun t => !named requests t := List.filter_append ..
  have hs := scheduler_candidate h
  have hspec := any32bitTimer_mem (any32bitTimer_spec h hany)
  constructor
  · rintro ⟨hsched, hfree⟩
    by_contra hgt
    have hfirst : ∀ x rest, (bits32Timers.filter fun t => !named requests t) = x :: rest →
        x ∈ (candidates requests).take k := by
      intro x rest hx
      rw [hsplit, hx]
      refine List.mem_take_iff_getElem.mpr ⟨((bits16Timers ++ upDownUpdownTimers).filter
        fun t => !named requests t).length, ?_, ?_⟩
      · simp only [List.length_append, List.length_cons]
        omega
      · simp
    cases h32 : bits32Timers.filter fun t => !named requests t with
    | nil =>
      have hmem : scheduler.value ∈ bits32Timers.filter fun t => !named requests t :=
        List.mem_filter.mpr ⟨scheduler.is32bit, (List.mem_filter.mp hs).2⟩
      rw [h32] at hmem
      cases hmem
    | cons x rest =>
      have hx := hfirst x rest h32
      by_cases hsx : x = scheduler.value
      · exact hsched (hsx ▸ hx)
      · refine hfree ?_
        have hmine : any32bitTimers scheduler requests =
            (x :: rest).filter fun t => t != scheduler.value := by
          rw [← h32, List.filter_filter]
          exact List.filter_congr fun t _ => Bool.and_comm ..
        rw [any32bitTimer, hmine, List.filter_cons_of_pos (by simpa using hsx)]
        exact hx
  · intro hle
    have hno : ∀ t ∈ bits32Timers, t ∉ (candidates requests).take k := by
      intro t ht hm
      rw [hsplit, List.take_append_of_le_length hle] at hm
      have hlow := (List.mem_filter.mp (List.mem_of_mem_take hm)).1
      have hdis : ∀ t ∈ bits32Timers, t ∉ bits16Timers ++ upDownUpdownTimers := by decide
      exact hdis t ht hlow
    exact ⟨hno _ scheduler.is32bit, hno _ hspec.1⟩

/-! ## Main result -/

/-- **Timer allocation**: the timers of an accepted list are safe when at most one request
is `Any32bit`, at most one names a timer that does not exist, and the general purpose
requests do not reach the timers meant for others. -/
theorem timer_allocation_safe (scheduler : SchedulerTimer) (requests : List Entry)
    (assigned : List (Nat × Config)) (haccepted : assign scheduler requests = .ok assigned) :
    Safe scheduler requests assigned ↔ Allotted scheduler requests := by
  have h := accepted haccepted
  have hperm : (assigned.map Prod.fst).Perm (List.range requests.length) := by
    rw [h.map_fst]
    exact h.serviceOrder_perm
  have hpos : scheduler.value ∉ (candidates requests).take (requests.countP Entry.isGeneralPurpose) ↔
      requests.countP Entry.isGeneralPurpose ≤ (candidates requests).idxOf scheduler.value := by
    rw [List.mem_take_iff_idxOf_lt (scheduler_candidate h), Nat.not_lt]
  constructor
  · intro hsafe
    obtain ⟨hmiss, hone, hfree⟩ := (distinct_iff h).mp hsafe.distinct
    have hsched := (scheduler_iff h).mp hsafe.scheduler
    exact ⟨hone, hmiss, hpos.mp hsched, fun hany => (reserved_iff h hany _).mp ⟨hsched, hfree hany⟩⟩
  · intro hok
    have hfree : 0 < requests.countP Entry.isAny32bit → any32bitTimer scheduler requests ∉
        (candidates requests).take (requests.countP Entry.isGeneralPurpose) :=
      fun hany => ((reserved_iff h hany _).mpr (hok.reserved hany)).2
    exact ⟨hperm, (distinct_iff h).mpr ⟨hok.missing, hok.any32bit, hfree⟩, any32bit_served h,
      (scheduler_iff h).mpr (hpos.mpr hok.scheduler)⟩

/-- A named timer, an `Any32bit` and a general purpose request. -/
def mixed : List Entry := [{ request := 3#8 }, { request := .any32bit }, {}]

theorem timer_allocation_safe_mixed : Safe {} mixed
    [(0, ⟨1#8, .reset, .reset⟩), (1, ⟨3#8, .reset, .reset⟩), (2, ⟨9#8, .reset, .reset⟩)] :=
  (timer_allocation_safe {} mixed _ (by rfl)).mpr ⟨by decide, by decide, by decide, by decide⟩

/-- Two `Any32bit` requests are given the same timer. -/
theorem timer_allocation_shared : ¬ ∀ scheduler requests assigned,
    assign scheduler requests = .ok assigned → Safe scheduler requests assigned := by
  intro hall
  have hsafe := hall {} [{ request := .any32bit }, { request := .any32bit }]
    [(0, ⟨3#8, .reset, .reset⟩), (1, ⟨3#8, .reset, .reset⟩)] rfl
  exact absurd hsafe.distinct (by decide)

end StLib.Timers.AllocationSafety
