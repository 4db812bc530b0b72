import StLib.Timers.AllocationSafety

/-! # When each device is given its own configuration

`build` fills its result in the order of service, and a device finds its configuration at
its position in the list of requests. -/
namespace StLib.Timers.Correspondence

open Model
open Allocation
open AllocationSafety

/-- A configuration that gives a request what it asks for. -/
structure Serves (e : Entry) (c : Config) : Prop where
  specific : e.isSpecific = true → c.timerIdx = timerIdxmap e.reqint
  any32bit : e.isAny32bit = true → c.timerIdx ∈ bits32Timers.map timerIdxmap
  generalPurpose : e.isGeneralPurpose = true →
    c.timerIdx ∈ (bits16Timers ++ upDownUpdownTimers ++ bits32Timers).map timerIdxmap
  trgo1 : c.trgo1 = e.trgo1
  trgo2 : c.trgo2 = e.trgo2

/-- The configuration at a request's index serves the request. -/
def Corresponds (requests : List Entry) (cfgs : List Config) : Prop :=
  ∀ i < requests.length, ∃ c, cfgs[i]? = some c ∧ Serves (entry requests i) c

/-- The requests stand in the order of service, as far as a configuration can tell: those
that name a timer first, then `Any32bit`, unless a general purpose request there is given a
32 bit timer too; and triggers stay the same when the order changes. -/
structure InOrder (requests : List Entry) : Prop where
  specific : ∀ i < requests.length, (entry requests i).isSpecific = true →
    i < requests.countP Entry.isSpecific
  any32bit : ∀ i < requests.length, (entry requests i).isAny32bit = true →
    i < requests.countP Entry.isSpecific + requests.countP Entry.isAny32bit ∨
      requests.countP Entry.isSpecific + requests.countP Entry.isAny32bit +
        ((bits16Timers ++ upDownUpdownTimers).filter fun t => !named requests t).length ≤ i
  triggers : ∀ i < requests.length, ∀ r, (serviceOrder requests)[i]? = some r →
    (entry requests r).trgo1 = (entry requests i).trgo1 ∧
      (entry requests r).trgo2 = (entry requests i).trgo2

/-! ## Devices -/

theorem ownerIndexOf_eq {owners : List Nat} {target : Nat} (hd : owners.Nodup) (n : Nat) {i : Nat}
    (h : owners[i]? = some target) : ownerIndexOf target n owners = .ok (n + i) := by
  induction owners generalizing n i with
  | nil => cases h
  | cons owner rest ih =>
    obtain ⟨hne, hrest⟩ := List.nodup_cons.mp hd
    cases i with
    | zero =>
      obtain rfl : owner = target := by simpa using h
      exact if_pos rfl
    | succ i =>
      have hget : rest[i]? = some target := by simpa using h
      have hother : owner ≠ target := fun he => hne (he ▸ List.mem_of_getElem? hget)
      rw [ownerIndexOf, if_neg hother, ih hrest (n + 1) hget]
      congr 1
      omega

/-- A device's configuration is the one at its position. -/
theorem instanceOf_eq {owners : List Nat} {target : Nat} (hd : owners.Nodup) {i : Nat}
    (h : owners[i]? = some target) (cfgs : List Config) :
    instanceOf owners cfgs target = .ok cfgs[i]? := by
  rw [instanceOf, ownerIndexOf_eq hd 0 h, Nat.zero_add]
  rfl

/-! ## The configurations by index -/

variable {scheduler : SchedulerTimer} {requests : List Entry} {assigned : List (Nat × Config)}

theorem length_specific (requests : List Entry) :
    (specificTimers requests).length = requests.countP Entry.isSpecific := by
  rw [specificTimers, List.length_map, List.countP_eq_length_filter]

theorem length_specificOrder (requests : List Entry) :
    (specificOrder requests).length = requests.countP Entry.isSpecific := by
  rw [specificOrder, ← List.countP_eq_length_filter, countP_entry]

theorem length_assigned (h : Accepted scheduler requests assigned) :
    assigned.length = requests.length := by
  have hlen := congrArg List.length h.map_fst
  rwa [List.length_map, h.serviceOrder_perm.length_eq, List.length_range] at hlen

/-- Every configuration carries the triggers of the request it is made for. -/
theorem assigned_triggers (h : Accepted scheduler requests assigned) :
    ∀ a ∈ assigned, a.2.trgo1 = (entry requests a.1).trgo1 ∧ a.2.trgo2 = (entry requests a.1).trgo2 := by
  intro a ha
  have hserved : ∃ r t, a = served requests r t := by
    rw [h.assigned] at ha
    rcases List.mem_append.mp ha with ha | ha
    · rcases List.mem_append.mp ha with ha | ha <;>
      · obtain ⟨r, -, rfl⟩ := List.mem_map.mp ha
        exact ⟨_, _, rfl⟩
    · obtain ⟨n, hn, rfl⟩ := List.mem_iff_getElem.mp ha
      rw [List.getElem_zipWith]
      exact ⟨_, _, rfl⟩
  obtain ⟨r, t, rfl⟩ := hserved
  exact ⟨rfl, rfl⟩

section Index

variable {i : Nat}

theorem timer_specific (h : Accepted scheduler requests assigned)
    (hi : i < requests.countP Entry.isSpecific) :
    (assigned.map fun a => a.2.timerIdx)[i]? =
      (specificOrder requests)[i]?.map fun r => timerIdxmap (entry requests r).reqint := by
  rw [assigned_timers h, List.append_assoc, List.getElem?_append_left, ← specific_timers,
    List.getElem?_map]
  rwa [List.length_map, length_specific]

theorem timer_any32bit (h : Accepted scheduler requests assigned)
    (hi : requests.countP Entry.isSpecific ≤ i)
    (hi' : i < requests.countP Entry.isSpecific + requests.countP Entry.isAny32bit) :
    (assigned.map fun a => a.2.timerIdx)[i]? =
      some (timerIdxmap (any32bitTimer scheduler requests)) := by
  have hlen := length_specific requests
  rw [assigned_timers h, List.getElem?_append_left, List.getElem?_append_right, List.getElem?_replicate,
    if_pos]
  all_goals simp only [List.length_append, List.length_map, List.length_replicate, hlen]
  all_goals omega

theorem timer_general (h : Accepted scheduler requests assigned)
    (hi : requests.countP Entry.isSpecific + requests.countP Entry.isAny32bit ≤ i)
    (hi' : i < requests.length) : ∃ t,
    (candidates requests)[i - (requests.countP Entry.isSpecific + requests.countP Entry.isAny32bit)]? =
      some t ∧ (assigned.map fun a => a.2.timerIdx)[i]? = some (timerIdxmap t) := by
  have hlen := length_specific requests
  have hall := length_assigned h
  have htimers := congrArg List.length (assigned_timers h)
  simp only [List.length_map, List.length_append, List.length_replicate, List.length_take, hlen]
    at htimers
  have hlt : i - (requests.countP Entry.isSpecific + requests.countP Entry.isAny32bit) <
      (candidates requests).length := by omega
  refine ⟨_, List.getElem?_eq_getElem hlt, ?_⟩
  rw [assigned_timers h, List.getElem?_append_right]
  · rw [List.length_append, List.length_map, List.length_replicate, hlen, List.getElem?_map,
      List.getElem?_take_of_lt (by omega), List.getElem?_eq_getElem hlt]
    rfl
  · rw [List.length_append, List.length_map, List.length_replicate, hlen]
    exact hi

/-- What is given to a request that names no timer is a candidate. -/
theorem timer_candidate (h : Accepted scheduler requests assigned)
    (hi : requests.countP Entry.isSpecific ≤ i) (hi' : i < requests.length) :
    ∃ t ∈ candidates requests, (assigned.map fun a => a.2.timerIdx)[i]? = some (timerIdxmap t) := by
  by_cases hany : i < requests.countP Entry.isSpecific + requests.countP Entry.isAny32bit
  · exact ⟨_, (any32bitTimer_mem (any32bitTimer_spec h (by omega))).2.1, timer_any32bit h hi hany⟩
  · obtain ⟨t, hget, htimer⟩ := timer_general h (Nat.not_lt.mp hany) hi'
    exact ⟨t, List.mem_of_getElem? hget, htimer⟩

end Index

/-- A candidate's width by its position. -/
theorem candidate_width {j t : Nat} (h : (candidates requests)[j]? = some t) :
    timerIdxmap t ∈ bits32Timers.map timerIdxmap ↔
      ((bits16Timers ++ upDownUpdownTimers).filter fun t => !named requests t).length ≤ j := by
  have hdis : ∀ t ∈ bits16Timers ++ upDownUpdownTimers,
      timerIdxmap t ∉ bits32Timers.map timerIdxmap := by decide
  rw [candidates, List.filter_append] at h
  constructor
  · intro hwide
    by_contra hlt
    rw [List.getElem?_append_left (Nat.not_le.mp hlt)] at h
    exact hdis t (List.mem_filter.mp (List.mem_of_getElem? h)).1 hwide
  · intro hle
    rw [List.getElem?_append_right hle] at h
    exact List.mem_map_of_mem (List.mem_filter.mp (List.mem_of_getElem? h)).1

/-- When the requests that name a timer come first, they are served in place. -/
theorem specificOrder_first (h : ∀ i < requests.length, (entry requests i).isSpecific = true →
    i < requests.countP Entry.isSpecific) :
    specificOrder requests = List.range (requests.countP Entry.isSpecific) := by
  have hle := List.countP_le_length (p := Entry.isSpecific) (l := requests)
  have hsub : (specificOrder requests).Subperm (List.range (requests.countP Entry.isSpecific)) := by
    refine List.subperm_of_subset (List.nodup_range.filter _) fun i hi => ?_
    obtain ⟨hlt, hspec⟩ := List.mem_filter.mp hi
    exact List.mem_range.mpr (h i (List.mem_range.mp hlt) hspec)
  have hperm := hsub.perm_of_length_le (by rw [length_specificOrder, List.length_range])
  have hsorted : (specificOrder requests).Pairwise (· < ·) := List.pairwise_lt_range.filter _
  exact hperm.eq_of_pairwise (fun _ _ _ _ hab hba => absurd hab (Nat.lt_asymm hba)) hsorted
    List.pairwise_lt_range

/-! ## Main result -/

/-- The configuration at index `i`, and the request that it is made for. -/
theorem configuration_at (h : Accepted scheduler requests assigned) {i : Nat}
    (hi : i < requests.length) : ∃ a, assigned[i]? = some a ∧ (serviceOrder requests)[i]? = some a.1 ∧
      (assigned.map fun a => a.2.timerIdx)[i]? = some a.2.timerIdx ∧
      a.2.trgo1 = (entry requests a.1).trgo1 ∧ a.2.trgo2 = (entry requests a.1).trgo2 := by
  have hlt : i < assigned.length := by
    rw [length_assigned h]
    exact hi
  have hget := List.getElem?_eq_getElem hlt
  refine ⟨assigned[i], hget, ?_, ?_, assigned_triggers h _ (List.getElem_mem hlt)⟩
  · rw [← h.map_fst, List.getElem?_map, hget]
    rfl
  · rw [List.getElem?_map, hget]
    rfl

theorem inOrder_of_corresponds (h : Accepted scheduler requests assigned)
    (hall : Corresponds requests (assigned.map Prod.snd)) : InOrder requests := by
  have hserves : ∀ i < requests.length, ∃ a, assigned[i]? = some a ∧
      (serviceOrder requests)[i]? = some a.1 ∧
      (assigned.map fun a => a.2.timerIdx)[i]? = some a.2.timerIdx ∧
      (a.2.trgo1 = (entry requests a.1).trgo1 ∧ a.2.trgo2 = (entry requests a.1).trgo2) ∧
      Serves (entry requests i) a.2 := by
    intro i hi
    obtain ⟨a, hget, horder, htimer, htrgo⟩ := configuration_at h hi
    obtain ⟨c, hc, hserve⟩ := hall i hi
    rw [List.getElem?_map, hget] at hc
    obtain rfl : a.2 = c := Option.some.inj hc
    exact ⟨a, hget, horder, htimer, htrgo, hserve⟩
  refine ⟨fun i hi hspec => ?_, fun i hi hany => ?_, fun i hi r hr => ?_⟩
  · -- the timers of the other requests are named by none
    by_contra hge
    obtain ⟨a, -, -, htimer, -, hserve⟩ := hserves i hi
    obtain ⟨t, ht, hget⟩ := timer_candidate h (Nat.not_lt.mp hge) hi
    rw [htimer, hserve.specific hspec] at hget
    refine candidate_free h ht (Option.some.inj hget ▸ List.mem_map_of_mem ?_)
    refine List.mem_map.mpr ⟨entry requests i, List.mem_filter.mpr ⟨?_, hspec⟩, rfl⟩
    rw [← map_entry requests]
    simpa using ⟨i, hi, by rw [map_entry]⟩
  · rw [or_iff_not_imp_left, Nat.not_lt]
    intro hge
    obtain ⟨a, -, -, htimer, -, hserve⟩ := hserves i hi
    obtain ⟨t, hget, hgeneral⟩ := timer_general h hge hi
    have hwide := hserve.any32bit hany
    rw [Option.some.inj (htimer.symm.trans hgeneral), candidate_width hget] at hwide
    omega
  · obtain ⟨a, -, horder, -, htrgo, hserve⟩ := hserves i hi
    obtain rfl := Option.some.inj (horder.symm.trans hr)
    exact ⟨htrgo.1.symm.trans hserve.trgo1, htrgo.2.symm.trans hserve.trgo2⟩

theorem corresponds_of_inOrder (h : Accepted scheduler requests assigned) (hin : InOrder requests) :
    Corresponds requests (assigned.map Prod.snd) := by
  have hfirst := specificOrder_first hin.specific
  -- the requests before index `m` name their timer
  have hspecific : ∀ i < requests.countP Entry.isSpecific, (entry requests i).isSpecific = true := by
    intro i hi
    have hmem : i ∈ specificOrder requests := hfirst ▸ List.mem_range.mpr hi
    exact (List.mem_filter.mp hmem).2
  intro i hi
  obtain ⟨a, hget, horder, htimer, htrgo⟩ := configuration_at h hi
  obtain ⟨htrgo1, htrgo2⟩ := hin.triggers i hi a.1 horder
  have hkinds := kinds (entry requests i)
  refine ⟨a.2, by rw [List.getElem?_map, hget]; rfl, fun hspec => ?_, fun hany => ?_, fun hgen => ?_,
    htrgo.1.trans htrgo1, htrgo.2.trans htrgo2⟩
  · have hlt := hin.specific i hi hspec
    have hplace := timer_specific h hlt
    rw [htimer, hfirst, List.getElem?_range hlt] at hplace
    exact Option.some.inj hplace
  · have hge : requests.countP Entry.isSpecific ≤ i := by
      by_contra hlt
      rw [hany, hspecific i (Nat.not_le.mp hlt)] at hkinds
      cases hkinds.1
    by_cases hlt : i < requests.countP Entry.isSpecific + requests.countP Entry.isAny32bit
    · rw [Option.some.inj (htimer.symm.trans (timer_any32bit h hge hlt))]
      exact List.mem_map_of_mem (any32bitTimer_mem (any32bitTimer_spec h (by omega))).1
    · have hwide := (hin.any32bit i hi hany).resolve_left hlt
      obtain ⟨t, hget, hgeneral⟩ := timer_general h (Nat.not_lt.mp hlt) hi
      rw [Option.some.inj (htimer.symm.trans hgeneral), candidate_width hget]
      omega
  · have hge : requests.countP Entry.isSpecific ≤ i := by
      by_contra hlt
      rw [hgen, hspecific i (Nat.not_le.mp hlt)] at hkinds
      simp at hkinds
    obtain ⟨t, ht, hget⟩ := timer_candidate h hge hi
    rw [Option.some.inj (htimer.symm.trans hget)]
    exact List.mem_map_of_mem (List.mem_filter.mp ht).1

/-- **Request and configuration**: the configuration at each index serves the request at
that index when the requests stand in the order of service. -/
theorem timer_correspondence (scheduler : SchedulerTimer) (requests : List Entry)
    (cfgs : List Config) (haccepted : build scheduler requests = .ok cfgs) :
    Corresponds requests cfgs ↔ InOrder requests := by
  unfold build at haccepted
  cases hassign : assign scheduler requests with
  | error m =>
    rw [hassign] at haccepted
    cases haccepted
  | ok assigned =>
    rw [hassign] at haccepted
    obtain rfl := Except.ok.inj haccepted
    have h := accepted hassign
    exact ⟨inOrder_of_corresponds h, corresponds_of_inOrder h⟩

/-- A named timer, an `Any32bit` and a general purpose request, in this order. -/
theorem timer_correspondence_mixed : Corresponds mixed
    [⟨1#8, .reset, .reset⟩, ⟨3#8, .reset, .reset⟩, ⟨9#8, .reset, .reset⟩] := by
  refine (timer_correspondence {} mixed _ (by rfl)).mpr ⟨by decide, by decide, ?_⟩
  intro i _ r _
  have hall : ∀ r, (entry mixed r).trgo1 = .reset ∧ (entry mixed r).trgo2 = .reset
    | 0 | 1 | 2 => ⟨rfl, rfl⟩
    | _ + 3 => ⟨rfl, rfl⟩
  rw [(hall r).1, (hall r).2, (hall i).1, (hall i).2]
  exact ⟨rfl, rfl⟩

/-- A general purpose request before one for timer 3 is handed timer 3. -/
theorem timer_correspondence_swapped : ¬ ∀ scheduler requests cfgs,
    build scheduler requests = .ok cfgs → Corresponds requests cfgs := by
  intro hall
  obtain ⟨c, hc, hserve⟩ := hall {} [{}, { request := 3#8 }]
    [⟨1#8, .reset, .reset⟩, ⟨9#8, .reset, .reset⟩] rfl 1 (by decide)
  obtain rfl : (⟨9#8, .reset, .reset⟩ : Config) = c := Option.some.inj hc
  exact absurd (hserve.specific rfl) (by decide)

end StLib.Timers.Correspondence
