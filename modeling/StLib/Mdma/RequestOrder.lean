import StLib.Mdma.Channels

/-! # The order of the requests

`transfer_queue` is a stack: `update` starts the newest request first. Requests are
started in their order where no more than one waits when `update` finds a free channel. -/
namespace StLib.Mdma.RequestOrder

open StLib.Base.Runs StLib.Mdma.Model StLib.Mdma.Channels

/-- The requests that are not started, the oldest first. -/
def waiting (s : State) : List Nat := (s.queue.map Request.number).reverse

/-- What was started, and then what waits, is what was requested, each once and in order. -/
def InOrder (s : State) : Prop := s.started ++ waiting s = List.range s.requested

instance (s : State) : Decidable (InOrder s) := inferInstanceAs (Decidable (_ = _))

/-- `update` starts one request at most unless it starts none, and the start succeeds. -/
def Drains (s : State) : Event → Prop
  | .update ok =>
    (freeChannels s (List.finRange 8) ≠ [] → s.queue.length ≤ 1) ∧
      ∀ i ∈ (freeChannels s (List.finRange 8)).take s.queue.length, ok i = true
  | _ => True

/-- What sets a flag is the completion of a transfer that was asked for with it. -/
def SetsOwn (s : State) (e : Event) (t : State) : Prop :=
  ∀ p, s.flags p = false → t.flags p = true →
    ∃ i x, e = .complete i ∧ (s.channels i).running = some x ∧ x.done = some p

/-- The newest request is on top, and no more were started than were requested. -/
structure Numbered (s : State) : Prop where
  sorted : (s.queue.map Request.number).Pairwise (· > ·)
  below : ∀ r ∈ s.queue, r.number < s.requested
  count : s.started.length + s.queue.length ≤ s.requested

/-- A sound state, its requests numbered. -/
structure Valid (s : State) : Prop where
  sound : Sound s
  numbered : Numbered s

variable {s t : State} {i : Fin 8}

/-! ## `update` -/

theorem Numbered.serve (h : Valid s) (ok : Fin 8 → Bool) (i : Fin 8) : Numbered (s.serve ok i) := by
  rcases serve_cases ok i s with ⟨he, -⟩ | ⟨r, rest, hq, hfree, he⟩
  · rw [he]
    exact h.numbered
  · obtain ⟨hsorted, hbelow, hcount⟩ := h.numbered
    rw [hq] at hsorted hbelow hcount
    rw [he, begin_eq h.sound hfree]
    refine ⟨?_, ?_, ?_⟩
    · show (s.queue.tail.map Request.number).Pairwise (· > ·)
      rw [hq]
      exact (List.pairwise_cons.mp hsorted).2
    · show ∀ r ∈ s.queue.tail, r.number < s.requested
      rw [hq]
      exact fun r hr => hbelow r (List.mem_cons_of_mem _ hr)
    · show (if ok i = true then s.started ++ [r.number] else s.started).length +
        s.queue.tail.length ≤ s.requested
      rw [hq, List.tail_cons]
      rw [List.length_cons] at hcount
      split
      · rw [List.length_append, List.length_singleton]
        omega
      · omega

theorem Valid.serve (h : Valid s) (ok : Fin 8 → Bool) (i : Fin 8) : Valid (s.serve ok i) :=
  ⟨h.sound.serve ok i, Numbered.serve h ok i⟩

/-- A request that is started from the top of the stack is started in its order if and only
if none waits below it. -/
theorem inOrder_serve (h : Valid s) (ok : Fin 8 → Bool) {r : Request} {rest : List Request}
    (hq : s.queue = r :: rest) (hfree : (s.channels i).free = true) :
    InOrder (s.serve ok i) ↔ InOrder s ∧ rest = [] ∧ ok i = true := by
  have he : s.serve ok i = (s.begin i r.transfer (ok i)).popQueue := by
    rw [State.serve, hq]
    exact if_pos hfree
  have hserved : InOrder (s.serve ok i) ↔
      (if ok i = true then s.started ++ [r.number] else s.started) ++
        (rest.map Request.number).reverse = List.range s.requested := by
    rw [he, begin_eq h.sound hfree, InOrder, waiting]
    show (_ ++ ((s.queue.tail).map Request.number).reverse = _) ↔ _
    rw [hq, List.tail_cons]
    rfl
  have hbefore : InOrder s ↔ s.started ++ ((rest.map Request.number).reverse ++ [r.number]) =
      List.range s.requested := by
    rw [InOrder, waiting, hq, List.map_cons, List.reverse_cons]
  rw [hserved, hbefore]
  constructor
  · intro horder
    have hlen := congrArg List.length horder
    have hcount := h.numbered.count
    have hsorted := h.numbered.sorted
    rw [hq] at hcount hsorted
    rw [List.length_append, List.length_reverse, List.length_map, List.length_range] at hlen
    rw [List.length_cons] at hcount
    have hok : ok i = true := by
      by_contra hn
      rw [if_neg hn] at hlen
      omega
    rw [if_pos hok] at horder
    have hrest : rest = [] := by
      by_contra hne
      obtain ⟨x, hx⟩ := List.exists_mem_of_ne_nil rest hne
      -- what waits below the top was requested before it
      have hlt : r.number < x.number := by
        have hp : (List.range s.requested).Pairwise (· < ·) := List.pairwise_lt_range
        rw [← horder, List.pairwise_append] at hp
        exact hp.2.2 _ (by simp) _ (List.mem_reverse.mpr (List.mem_map_of_mem hx))
      have hgt := (List.pairwise_cons.mp hsorted).1 _ (List.mem_map_of_mem hx)
      exact Nat.lt_asymm hlt hgt
    subst hrest
    exact ⟨by simpa using horder, rfl, hok⟩
  · rintro ⟨horder, rfl, hok⟩
    simpa [hok] using horder

theorem inOrder_serves {is : List (Fin 8)} (ok : Fin 8 → Bool) (h : Valid s) (hd : is.Nodup) :
    Valid (is.foldl (fun s i => s.serve ok i) s) ∧
      (InOrder (is.foldl (fun s i => s.serve ok i) s) ↔
        InOrder s ∧ (freeChannels s is ≠ [] → s.queue.length ≤ 1) ∧
          ∀ i ∈ (freeChannels s is).take s.queue.length, ok i = true) := by
  induction is generalizing s with
  | nil => exact ⟨h, by simp [freeChannels]⟩
  | cons i is ih =>
    obtain ⟨hi, hd⟩ := List.nodup_cons.mp hd
    obtain ⟨hvalid, hiff⟩ := ih (h.serve ok i) hd
    rw [List.foldl_cons]
    refine ⟨hvalid, ?_⟩
    rw [hiff]
    rcases serve_cases ok i s with ⟨he, hwait⟩ | ⟨r, rest, hq, hfree, he⟩
    · rw [he]
      rcases hwait with hq | hbusy
      · simp [hq]
      · rw [freeChannels, freeChannels, List.filter_cons_of_neg (by simp [hbusy])]
    · have hlen : (s.serve ok i).queue = rest := by
        rw [he, begin_eq h.sound hfree]
        show s.queue.tail = rest
        rw [hq, List.tail_cons]
      have hcons : freeChannels s (i :: is) = i :: freeChannels s is :=
        List.filter_cons_of_pos hfree
      rw [inOrder_serve h ok hq hfree, hlen, hcons, hq]
      constructor
      · rintro ⟨⟨horder, rfl, hok⟩, -⟩
        exact ⟨horder, fun _ => Nat.le_refl 1, by simpa using hok⟩
      · rintro ⟨horder, hone, hok⟩
        have hrest : rest = [] := by simpa using hone (List.cons_ne_nil _ _)
        subst hrest
        exact ⟨⟨horder, rfl, by simpa using hok⟩, by simp⟩

/-! ## One step -/

theorem valid_congr (h : Valid s) (hsound : Sound t) (hq : t.queue = s.queue)
    (hr : t.requested = s.requested) (hs : t.started = s.started) : Valid t :=
  ⟨hsound, by
    obtain ⟨hsorted, hbelow, hcount⟩ := h.numbered
    exact ⟨by rwa [hq], by rwa [hq, hr], by rwa [hq, hr, hs]⟩⟩

theorem inOrder_congr (hq : t.queue = s.queue) (hr : t.requested = s.requested)
    (hs : t.started = s.started) : InOrder t ↔ InOrder s := by
  rw [InOrder, InOrder, waiting, waiting, hq, hr, hs]

theorem transferList_cases (first : BitVec 32) (done : Option Flag) (s : State) :
    (s.transferList first done = s.panic "MDMA transfer queue full") ∨
      s.transferList first done =
        { s with
          queue := { number := s.requested, first, done } :: s.queue
          requested := s.requested + 1 } := by
  unfold State.transferList
  split
  next => exact .inl rfl
  next h =>
    have hlen : s.queue.length < 50 := Nat.lt_of_not_le h
    refine .inr ?_
    rw [push, if_pos hlen]

/-- Requests and their order are those of `update` and `transfer_list`. -/
theorem order_step {e : Event} (h : Valid s) (hs : Step s e t) :
    Valid t ∧ (InOrder t ↔ InOrder s ∧ Drains s e) := by
  have hsound : Sound t := h.sound.step hs
  cases e with
  | transferList first done =>
    cases hs
    rcases transferList_cases first done s with he | he
    · rw [he] at hsound ⊢
      exact ⟨valid_congr h hsound rfl rfl rfl, (and_iff_left trivial).symm⟩
    · obtain ⟨hsorted, hbelow, hcount⟩ := h.numbered
      rw [he] at hsound ⊢
      refine ⟨⟨hsound, ⟨?_, ?_, ?_⟩⟩, ?_⟩
      · refine List.pairwise_cons.mpr ⟨fun n hn => ?_, hsorted⟩
        obtain ⟨r, hr, rfl⟩ := List.mem_map.mp hn
        exact hbelow r hr
      · refine List.forall_mem_cons.mpr ⟨Nat.lt_succ_self _, fun r hr => ?_⟩
        exact Nat.lt_succ_of_lt (hbelow r hr)
      · exact Nat.succ_le_succ hcount
      · rw [and_iff_left (show Drains s (.transferList first done) from trivial), InOrder, waiting,
          List.map_cons, List.reverse_cons, ← List.append_assoc]
        show s.started ++ waiting s ++ [s.requested] = List.range (s.requested + 1) ↔ _
        rw [List.range_succ, List.append_left_inj]
        rfl
  | transferData source destination length done ok =>
    cases hs
    obtain ⟨flags, -, he⟩ := transferDataFrom_eq
      { first := .transferNode source destination length, done } ok (List.finRange 8) s
    have hflags : Sound ({ s with flags } : State) := h.sound
    rw [State.transferData, he] at hsound ⊢
    cases hf : firstFree s (List.finRange 8) with
    | none =>
      exact ⟨valid_congr h h.sound rfl rfl rfl, (and_iff_left trivial).symm⟩
    | some i =>
      have hi : (s.channels i).free = true := firstFree_free hf
      rw [hf] at hsound
      have hbegin : ({ s with flags } : State).begin i
          { first := .transferNode source destination length, done } ok = _ := begin_eq hflags hi
      have hqueue := congrArg State.queue hbegin
      have hrequested := congrArg State.requested hbegin
      have hstarted : (({ s with flags } : State).begin i
          { first := .transferNode source destination length, done } ok).started = s.started := by
        rw [hbegin]
        cases ok with
        | true => exact List.append_nil _
        | false => rfl
      exact ⟨valid_congr h hsound hqueue hrequested hstarted,
        (inOrder_congr (s := s) hqueue hrequested hstarted).trans (and_iff_left trivial).symm⟩
  | update ok =>
    cases hs
    exact inOrder_serves ok h (List.nodup_finRange 8)
  | complete i =>
    obtain ⟨x, -, rfl⟩ := complete_cases hs
    rw [State.transferCompleteCallback, setFlag_eq] at hsound ⊢
    exact ⟨valid_congr h hsound rfl rfl rfl, (and_iff_left trivial).symm⟩
  | error i =>
    obtain ⟨x, -, rfl⟩ := error_cases hs
    rw [State.transferErrorCallback, setFlag_eq] at hsound ⊢
    exact ⟨valid_congr h hsound rfl rfl rfl, (and_iff_left trivial).symm⟩

/-! ## Flags -/

theorem serves_flags (ok : Fin 8 → Bool) (h : Sound s) (is : List (Fin 8)) :
    (is.foldl (fun s i => s.serve ok i) s).flags = s.flags := by
  induction is generalizing s with
  | nil => rfl
  | cons i is ih =>
    rw [List.foldl_cons, ih (h.serve ok i)]
    rcases serve_cases ok i s with ⟨he, -⟩ | ⟨r, rest, -, hfree, he⟩
    · rw [he]
    · rw [he, begin_eq h hfree]
      rfl

/-- **Flags** are set by the completion of the transfers they were passed with. -/
theorem setsOwn_step {e : Event} (h : Sound s) (hs : Step s e t) : SetsOwn s e t := by
  intro p hclear hset
  cases e with
  | transferList first done =>
    cases hs
    rcases transferList_cases first done s with he | he <;> rw [he] at hset <;>
      exact absurd (hset.symm.trans hclear) (by decide)
  | transferData source destination length done ok =>
    cases hs
    obtain ⟨flags, hflags, he⟩ := transferDataFrom_eq
      { first := .transferNode source destination length, done } ok (List.finRange 8) s
    have hsound : Sound ({ s with flags } : State) := h
    have hp : flags p = true := by
      rw [State.transferData, he] at hset
      cases hf : firstFree s (List.finRange 8) with
      | none => rwa [hf] at hset
      | some i =>
        have hi : (s.channels i).free = true := firstFree_free hf
        rw [hf, State.beginAt, begin_eq hsound hi] at hset
        exact hset
    rw [hflags p hp] at hclear
    cases hclear
  | update ok =>
    cases hs
    rw [State.update, serves_flags ok h, hclear] at hset
    cases hset
  | complete i =>
    obtain ⟨x, hx, rfl⟩ := complete_cases hs
    refine ⟨i, x, rfl, hx, ?_⟩
    rw [← ((h i).running x hx).2]
    rw [State.transferCompleteCallback] at hset
    cases hd : (s.channels i).done with
    | none =>
      rw [hd] at hset
      exact absurd (hset.symm.trans hclear) (by decide)
    | some q =>
      rw [hd] at hset
      by_cases hq : p = q
      · rw [hq]
      · have hother : Function.update s.flags q true p = true := hset
        rw [Function.update_of_ne hq, hclear] at hother
        cases hother
  | error i =>
    obtain ⟨x, hx, rfl⟩ := error_cases hs
    obtain ⟨flags, hflags, he⟩ := setFlag_false (s.channels i).done
      (s.setChannel i { s.channels i with state := .ready, running := none })
    rw [State.transferErrorCallback, he] at hset
    rw [show s.flags p = true from hflags p hset] at hclear
    cases hclear

/-! ## Every run -/

/-- **Requests.** They are started in their order, each once, if and only if every `update`
that finds a free channel finds one request at most, which it starts. A flag is set when a
transfer completes that was asked for with it, and only then. -/
theorem requests_in_order {flags : Flag → Bool} {ls : List Event}
    (r : Run Step (fun _ _ => True) (init flags) ls t) :
    (InOrder t ↔ Run Step Drains (init flags) ls t) ∧ ∀ e u, Step t e u → SetsOwn t e u := by
  have hinit : Valid (init flags) :=
    ⟨sound_init flags, ⟨.nil, fun _ hr => (by cases hr), Nat.le_refl 0⟩⟩
  refine ⟨r.exact hinit rfl (fun _ _ _ h hs => (order_step h hs).1)
    fun _ _ _ h hs => (order_step h hs).2, fun e u hs => ?_⟩
  have hsound : Sound t :=
    r.invariant (sound_init flags) fun _ _ _ h _ hs => h.step hs
  exact setsOwn_step hsound hs

/-- One request at a time. -/
theorem requests_in_order_single :
    ∃ t, exec step (init fun _ => false)
        [.transferList 0x24000000 (some 0), .update fun _ => true, .complete 0] = some t ∧
      (InOrder t ↔ Run Step Drains (init fun _ => false)
        [.transferList 0x24000000 (some 0), .update fun _ => true, .complete 0] t) ∧
      ∀ e u, Step t e u → SetsOwn t e u :=
  ⟨_, rfl, requests_in_order (run_of_exec (fun _ _ _ => trivial) rfl)⟩

/-- Of two requests the second is started first. -/
theorem requests_reversed :
    ¬ ∀ (flags : Flag → Bool) (ls : List Event) (t : State),
      Run Step (fun _ _ => True) (init flags) ls t →
        InOrder t ∧ ∀ e u, Step t e u → SetsOwn t e u := by
  intro h
  have ht := (h (fun _ => false)
    [.transferList 0x24000000 none, .transferList 0x24000100 none, .update fun _ => true] _
    (run_of_exec (fun _ _ _ => trivial) rfl)).1
  revert ht
  decide

end StLib.Mdma.RequestOrder
