import StLib.Mdma.Model

/-! # Busy channels

A channel is marked busy while a transfer is in progress on it, until one fails or cannot
be started: that channel is never used again. -/
namespace StLib.Mdma.Channels

open StLib.Base.Runs StLib.Mdma.Model

/-- A channel is marked busy if and only if a transfer is in progress on it. -/
def Bookkept (s : State) : Prop :=
  ∀ i, (s.channels i).free = false ↔ (s.channels i).running.isSome

/-- The channels among `is` that `update` may take. -/
def freeChannels (s : State) (is : List (Fin 8)) : List (Fin 8) :=
  is.filter fun i => (s.channels i).free

/-- Every start of a transfer succeeds and none fails. -/
def Succeeds (s : State) : Event → Prop
  | .transferData _ _ _ _ ok => firstFree s (List.finRange 8) ≠ none → ok = true
  | .update ok => ∀ i ∈ (freeChannels s (List.finRange 8)).take s.queue.length, ok i = true
  | .error _ => False
  | .transferList .. | .complete _ => True

variable {s t : State} {i j : Fin 8} {x : Transfer}

/-! ## One channel -/

def Channel.Kept (c : Channel) : Prop := c.free = false ↔ c.running.isSome

theorem bookkept_update {c : Channel} (h : t.channels = Function.update s.channels i c) :
    Bookkept t ↔ Channel.Kept c ∧ ∀ j ≠ i, Channel.Kept (s.channels j) := by
  have hkept : Bookkept t ↔ ∀ j, Channel.Kept (Function.update s.channels i c j) := by
    rw [← h]
    exact Iff.rfl
  rw [hkept]
  exact Function.forall_update_iff s.channels fun _ c => Channel.Kept c

theorem bookkept_iff (i : Fin 8) :
    Bookkept s ↔ Channel.Kept (s.channels i) ∧ ∀ j ≠ i, Channel.Kept (s.channels j) :=
  bookkept_update (Function.update_eq_self i s.channels).symm

/-- A channel that is free is kept. -/
theorem kept_of_free (h : Sound s) (hi : (s.channels i).free = true) :
    Channel.Kept (s.channels i) := by
  rw [Channel.Kept, hi, (h i).idle hi]
  simp

theorem bookkept_begin {ok : Bool} (h : Sound s) (hi : (s.channels i).free = true) :
    Bookkept (s.begin i x ok) ↔ Bookkept s ∧ ok = true := by
  have htaken : Channel.Kept (taken x ok (s.channels i)) ↔ ok = true := by
    cases ok with
    | true => exact iff_of_true ⟨fun _ => rfl, fun _ => rfl⟩ rfl
    | false =>
      have hnone : (taken x false (s.channels i)).running = none := (h i).idle hi
      rw [Channel.Kept, hnone]
      exact iff_of_false (fun hk => by cases hk.mp rfl) Bool.false_ne_true
  rw [bookkept_update (congrArg State.channels (begin_eq h hi)), bookkept_iff (s := s) i, htaken,
    and_iff_right (kept_of_free h hi), and_comm]

/-! ## The loops -/

theorem freeChannels_begin {ok : Bool} {is : List (Fin 8)} (h : Sound s)
    (hi : (s.channels i).free = true) (his : i ∉ is) :
    freeChannels (s.begin i x ok).popQueue is = freeChannels s is := by
  refine List.filter_congr fun j hj => ?_
  have hne : j ≠ i := fun he => his (he ▸ hj)
  show ((s.begin i x ok).channels j).free = _
  rw [begin_eq h hi]
  show (Function.update s.channels i (taken x ok (s.channels i)) j).free = _
  rw [Function.update_of_ne hne]

theorem bookkept_serves {is : List (Fin 8)} (ok : Fin 8 → Bool) (h : Sound s) (hd : is.Nodup) :
    Bookkept (is.foldl (fun s i => s.serve ok i) s) ↔
      Bookkept s ∧ ∀ i ∈ (freeChannels s is).take s.queue.length, ok i = true := by
  induction is generalizing s with
  | nil => simp [freeChannels]
  | cons i is ih =>
    obtain ⟨hi, hd⟩ := List.nodup_cons.mp hd
    rw [List.foldl_cons]
    rcases serve_cases ok i s with ⟨he, hwait⟩ | ⟨r, rest, hq, hfree, he⟩
    · rw [he, ih h hd]
      rcases hwait with hq | hbusy
      · simp [hq]
      · rw [freeChannels, freeChannels, List.filter_cons_of_neg (by simp [hbusy])]
    · have hsound : Sound (s.begin i r.transfer (ok i)).popQueue := h.begin hfree
      have hlen : (s.begin i r.transfer (ok i)).popQueue.queue.length = rest.length := by
        rw [begin_eq h hfree]
        show s.queue.tail.length = rest.length
        rw [hq, List.tail_cons]
      have hcons : freeChannels s (i :: is) = i :: freeChannels s is :=
        List.filter_cons_of_pos hfree
      rw [he, ih hsound hd, freeChannels_begin h hfree hi, hlen, hcons, hq, List.length_cons,
        List.take_succ_cons, List.forall_mem_cons, ← and_assoc]
      exact and_congr_left fun _ => bookkept_begin h hfree

theorem bookkept_transferData {ok : Bool} (h : Sound s) (source destination length : BitVec 32)
    (done : Option Flag) :
    Bookkept (s.transferData source destination length done ok) ↔
      Bookkept s ∧ (firstFree s (List.finRange 8) ≠ none → ok = true) := by
  obtain ⟨flags, -, he⟩ := transferDataFrom_eq
    { first := .transferNode source destination length, done } ok (List.finRange 8) s
  have hflags : Sound ({ s with flags } : State) := h
  rw [State.transferData, he]
  cases hf : firstFree s (List.finRange 8) with
  | none => exact ⟨fun hk => ⟨hk, fun hn => absurd rfl hn⟩, And.left⟩
  | some i =>
    have hi : (s.channels i).free = true := firstFree_free hf
    rw [show (some i ≠ none → ok = true) ↔ ok = true from forall_prop_of_true (Option.some_ne_none i)]
    exact bookkept_begin hflags hi

/-- **One step** keeps the books exactly when all of its transfers succeed. -/
theorem bookkept_step {e : Event} (h : Sound s) (hs : Step s e t) :
    Bookkept t ↔ Bookkept s ∧ Succeeds s e := by
  cases e with
  | transferList first done =>
    cases hs
    have hchannels : (s.transferList first done).channels = s.channels := by
      unfold State.transferList
      split <;> rfl
    rw [Bookkept, hchannels]
    exact (and_iff_left trivial).symm
  | transferData source destination length done ok =>
    cases hs
    exact bookkept_transferData h source destination length done
  | update ok =>
    cases hs
    exact bookkept_serves ok h (List.nodup_finRange 8)
  | complete i =>
    obtain ⟨x, hx, rfl⟩ := complete_cases hs
    have hbusy : Channel.Kept (s.channels i) := by
      rw [Channel.Kept, hx, ((h i).running x hx).1]
      simp
    rw [State.transferCompleteCallback, setFlag_eq,
      bookkept_update (s := s) (i := i) rfl, bookkept_iff (s := s) i, and_iff_right hbusy]
    simp [Channel.Kept, Succeeds]
  | error i =>
    obtain ⟨x, hx, rfl⟩ := error_cases hs
    have hbusy := ((h i).running x hx).1
    rw [State.transferErrorCallback, setFlag_eq, State.panic,
      bookkept_update (s := s) (i := i) rfl]
    simp [Channel.Kept, hbusy, Succeeds]

/-! ## Every run -/

/-- **Channels.** The books are right after a run exactly when every start in it
succeeded and no transfer failed. -/
theorem channels_kept_iff {flags : Flag → Bool} {ls : List Event}
    (r : Run Step (fun _ _ => True) (init flags) ls t) :
    Bookkept t ↔ Run Step Succeeds (init flags) ls t :=
  r.exact (sound_init flags) (fun _ => by simp [init]) (fun _ _ _ => Sound.step)
    fun _ _ _ => bookkept_step

/-- A transfer that is requested, started and done. -/
theorem channels_kept_transfer :
    ∃ t, exec step (init fun _ => false)
        [.transferList 0x24000000 none, .update fun _ => true, .complete 0] = some t ∧
      (Bookkept t ↔ Run Step Succeeds (init fun _ => false)
        [.transferList 0x24000000 none, .update fun _ => true, .complete 0] t) :=
  ⟨_, rfl, channels_kept_iff (run_of_exec (fun _ _ _ => trivial) rfl)⟩

/-- A transfer that fails leaves its channel marked busy, and no step frees it. -/
theorem error_leaks :
    ¬ ∀ (flags : Flag → Bool) (ls : List Event) (t : State),
      Run Step (fun _ _ => True) (init flags) ls t → Bookkept t := by
  intro h
  have hk := h (fun _ => false) [.transferList 0x24000000 none, .update fun _ => true, .error 0] _
    (run_of_exec (fun _ _ _ => trivial) rfl) 0
  exact Bool.false_ne_true (hk.mp rfl)

end StLib.Mdma.Channels
