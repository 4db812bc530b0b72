import Mathlib.Data.Fintype.Card
import Mathlib.Logic.Relation
import StLib.Diagnostics.Forwarding

/-! # Diagnostics that come back

A record that arrives is published and sent on like any other. It is sent a bounded number
of times exactly when the links between the boards have no cycle. -/
namespace StLib.Diagnostics.EchoFree

open StLib.Base.Bytes
open StLib.Diagnostics.Hub (DiagnosticPriority maxSinks)
open StLib.Diagnostics.HubDelivery
open StLib.Diagnostics.Forwarding

/-! ## Operations of a hub -/

section Hub

variable {R : Type}

/-- The hub after its sinks have been asked. -/
structure Flushes (h h' : Hub.State R) : Prop where
  delivering : Delivering h'
  published : h'.published = h.published
  kept : ∀ a ∈ h.accepted, a ∈ h'.accepted
  sinkCount : h'.sinkCount = h.sinkCount

theorem Flushes.trans {h h' h'' : Hub.State R} (a : Flushes h h') (b : Flushes h' h'') :
    Flushes h h'' :=
  ⟨b.delivering, b.published.trans a.published, fun x hx => b.kept x (a.kept x hx),
    b.sinkCount.trans a.sinkCount⟩

theorem flushPending_flushes {h : Hub.State R} (hd : Delivering h) (eth : Bool)
    (answers : Nat → Bool) (urgentOnly : Bool) (now : BitVec 64) :
    Flushes h (Hub.flushPending eth answers urgentOnly now h) := by
  have hf : Flushed h.pendingRecords h
      (Hub.flushRecords eth answers urgentOnly now h.pendingRecords h) :=
    flushRecords_flushed hd.sound hd.queued
  exact ⟨(flushPending_delivering hd).1, hf.asks.published, hf.asks.kept, hf.asks.sinkCount⟩

theorem flush_flushes {h : Hub.State R} (hd : Delivering h) (eth : Bool)
    (answers : Nat → Bool) (now now' : BitVec 64) :
    Flushes h (Hub.flush eth answers now now' h) :=
  have hurgent := flushPending_flushes hd eth answers true now
  hurgent.trans (flushPending_flushes hurgent.delivering eth answers false now')

theorem publish_log (priority : DiagnosticPriority) (content : R) (h : Hub.State R) :
    (Hub.publish priority content h).published = h.published + 1 ∧
      (Hub.publish priority content h).accepted = h.accepted := by
  rw [publish_eq]
  split
  next => exact ⟨rfl, rfl⟩
  next => rw [pushPending_eq]; exact ⟨rfl, rfl⟩

theorem replay_log (h : Hub.State R) : (Hub.replayHistoryToPending h).published = h.published ∧
    (Hub.replayHistoryToPending h).accepted = h.accepted := by
  have hfold : ∀ (l : List Nat) (record : Nat → Hub.DiagnosticRecord R) (h : Hub.State R),
      (l.foldl (fun h' i => Hub.pushPending (record i) h') h).published = h.published ∧
        (l.foldl (fun h' i => Hub.pushPending (record i) h') h).accepted = h.accepted := by
    intro l record
    induction l with
    | nil => exact fun h => ⟨rfl, rfl⟩
    | cons i l ih => exact fun h => ih (Hub.pushPending (record i) h)
  unfold Hub.replayHistoryToPending
  split
  next => exact ⟨rfl, rfl⟩
  next => exact hfold _ _ h

/-- Installing a sink gives it the next index. -/
theorem emplaceSink_log (fits : Bool) (h : Hub.State R) :
    (∃ e, Hub.emplaceSink fits h = (.error e, h)) ∨
      ∃ h', Hub.emplaceSink fits h = (.ok h.sinkCount, h') ∧ h'.published = h.published ∧
        h'.accepted = h.accepted := by
  unfold Hub.emplaceSink
  dsimp only
  by_cases hmany : h.sinkCount ≥ Hub.maxSinks
  · rw [if_pos hmany]
    exact .inl ⟨_, rfl⟩
  · rw [if_neg hmany]
    cases fits with
    | false => exact .inl ⟨_, rfl⟩
    | true =>
      refine .inr ⟨_, rfl, ?_⟩
      split
      next => exact replay_log _
      next => exact ⟨rfl, rfl⟩

end Hub

/-! ## Lineages -/

section Network

variable {B κ : Type}

theorem Lineage.extend_inj {l l' : Lineage B} {i i' : Nat} (h : l.extend i = l'.extend i') :
    l = l' ∧ i = i' := by
  obtain ⟨board, seq, path⟩ := l
  obtain ⟨board', seq', path'⟩ := l'
  obtain ⟨rfl, rfl, hpath⟩ := Lineage.mk.inj h
  obtain ⟨rfl, hi⟩ := List.append_inj' hpath rfl
  exact ⟨rfl, (List.cons.inj hi).1⟩

theorem Lineage.extend_path (l : Lineage B) (i : Nat) : (l.extend i).path ≠ [] :=
  List.append_ne_nil_of_right_ne_nil _ (List.cons_ne_nil _ _)

/-- Each record is published once: a root on its board, and a record that was sent on the
board it was sent to. -/
structure Traced (links : B → B → Prop) (n : Net B κ) : Prop where
  hubs : ∀ b, Delivering (n.hub b)
  logged : ∀ b, (n.records b).length = (n.hub b).published
  along : ∀ b i t, n.target b i = some t → links b t
  roots : ∀ b (k : Nat) (r : Lineage B × Content κ), (n.records b)[k]? = some r →
    r.1.path = [] → r.1 = { board := b, seq := k }
  repeats : ∀ b (k : Nat) (r : Lineage B × Content κ), (n.records b)[k]? = some r →
    r.1.path ≠ [] → ∃ m ∈ n.sent, m.dest = b ∧ m.lineage = r.1
  distinct : ∀ b (k : Nat) (r : Lineage B × Content κ) b' (k' : Nat) (r' : Lineage B × Content κ),
    (n.records b)[k]? = some r → (n.records b')[k']? = some r' → r.1 = r'.1 → b = b' ∧ k = k'
  sentOnce : (n.sent.map Message.lineage).Nodup
  accepted : ∀ m ∈ n.sent, ∃ (k : Nat) (r : Lineage B × Content κ) (i : Nat),
    (n.records m.source)[k]? = some r ∧ (k, i) ∈ (n.hub m.source).accepted ∧
      n.target m.source i = some m.dest ∧ m.lineage = r.1.extend i
  flying : ∀ m ∈ n.inFlight, m ∈ n.sent
  flyingOnce : (n.inFlight.map Message.lineage).Nodup
  fresh : ∀ m ∈ n.inFlight, ∀ b (k : Nat) (r : Lineage B × Content κ),
    (n.records b)[k]? = some r → r.1 ≠ m.lineage

section Steps

variable [DecidableEq B] {links : B → B → Prop} {n : Net B κ}

omit [DecidableEq B] in
theorem initial_traced : Traced links (initial B κ) where
  hubs _ := initial_delivering
  logged _ := rfl
  along _ _ _ h := nomatch h
  roots _ _ _ h := nomatch h
  repeats _ _ _ h := nomatch h
  distinct _ _ _ _ _ _ h := nomatch h
  sentOnce := List.nodup_nil
  accepted _ h := nomatch h
  flying _ h := nomatch h
  flyingOnce := List.nodup_nil
  fresh _ h := nomatch h

/-- The records after one more on the board `b`. -/
theorem records_publish {b : B} {x : Lineage B × Content κ} {c : B} {k : Nat}
    {r : Lineage B × Content κ}
    (h : (Function.update n.records b (n.records b ++ [x]) c)[k]? = some r) :
    (n.records c)[k]? = some r ∨ (c = b ∧ k = (n.records b).length ∧ r = x) := by
  by_cases hc : c = b
  · subst hc
    rw [Function.update_self] at h
    by_cases hk : k < (n.records c).length
    · rw [List.getElem?_append_left hk] at h
      exact .inl h
    · rw [List.getElem?_append_right (Nat.le_of_not_lt hk)] at h
      obtain ⟨hlt, he⟩ := List.getElem?_eq_some_iff.mp h
      rw [List.length_singleton] at hlt
      rw [List.getElem_singleton] at he
      exact .inr ⟨rfl, by omega, he.symm⟩
  · rw [Function.update_of_ne hc] at h
    exact .inl h

theorem records_kept {b : B} {x : Lineage B × Content κ} {c : B} {k : Nat}
    {r : Lineage B × Content κ} (h : (n.records c)[k]? = some r) :
    (Function.update n.records b (n.records b ++ [x]) c)[k]? = some r := by
  by_cases hc : c = b
  · subst hc
    rw [Function.update_self]
    rw [List.getElem?_append_left (List.getElem?_eq_some_iff.mp h).1]
    exact h
  · rwa [Function.update_of_ne hc]

theorem publish_traced (ht : Traced links n) {b : B} {l : Lineage B}
    (hroot : l.path = [] → l = { board := b, seq := (n.hub b).published })
    (hrepeat : l.path ≠ [] → ∃ m ∈ n.sent, m.dest = b ∧ m.lineage = l)
    (hnew : ∀ c (k : Nat) (r : Lineage B × Content κ), (n.records c)[k]? = some r → r.1 ≠ l)
    (hflying : ∀ m ∈ n.inFlight, m.lineage ≠ l) (priority : DiagnosticPriority)
    (content : Content κ) : Traced links (n.publish b priority content l) := by
  obtain ⟨hpublished, haccepted⟩ := publish_log priority content (n.hub b)
  refine ⟨fun c => ?_, fun c => ?_, ht.along, fun c k r h => ?_, fun c k r h hp => ?_,
    fun c k r c' k' r' h h' he => ?_, ht.sentOnce, fun m hm => ?_, ht.flying, ht.flyingOnce,
    fun m hm c k r h => ?_⟩
  · by_cases hc : c = b
    · subst hc
      show Delivering (Function.update n.hub c _ c)
      rw [Function.update_self]
      exact (publish_delivering (ht.hubs c)).1
    · show Delivering (Function.update n.hub b _ c)
      rw [Function.update_of_ne hc]
      exact ht.hubs c
  · show (Function.update n.records b _ c).length = (Function.update n.hub b _ c).published
    by_cases hc : c = b
    · subst hc
      rw [Function.update_self, Function.update_self, hpublished, List.length_append, ht.logged]
      rfl
    · rw [Function.update_of_ne hc, Function.update_of_ne hc]
      exact ht.logged c
  · rcases records_publish h with h | ⟨rfl, rfl, rfl⟩
    · exact ht.roots c k r h
    · rw [ht.logged]
      exact hroot
  · rcases records_publish h with h | ⟨rfl, rfl, rfl⟩
    · exact ht.repeats c k r h hp
    · exact hrepeat hp
  · rcases records_publish h with hr | ⟨rfl, rfl, rfl⟩
    · rcases records_publish h' with hr' | ⟨rfl, rfl, rfl⟩
      · exact ht.distinct c k r c' k' r' hr hr' he
      · exact absurd he (hnew c k r hr)
    · rcases records_publish h' with hr' | ⟨rfl, rfl, rfl⟩
      · exact absurd he.symm (hnew c' k' r' hr')
      · exact ⟨rfl, rfl⟩
  · obtain ⟨k, r, i, hr, ha, htarget, hl⟩ := ht.accepted m hm
    refine ⟨k, r, i, records_kept hr, ?_, htarget, hl⟩
    show _ ∈ (Function.update n.hub b _ m.source).accepted
    by_cases hc : m.source = b
    · rw [hc] at ha ⊢
      rw [Function.update_self, haccepted]
      exact ha
    · rwa [Function.update_of_ne hc]
  · rcases records_publish h with h | ⟨rfl, rfl, rfl⟩
    · exact ht.fresh m hm c k r h
    · exact (hflying m hm).symm

/-- A record of the program. -/
theorem publish_root_traced (ht : Traced links n) (b : B) (priority : DiagnosticPriority)
    (content : Content κ) :
    Traced links (n.publish b priority content { board := b, seq := (n.hub b).published }) := by
  refine publish_traced ht (fun _ => rfl) (fun hp => absurd rfl hp) (fun c k r h he => ?_)
    (fun m hm he => ?_) priority content
  · have hroot := ht.roots c k r h (congrArg Lineage.path he)
    obtain ⟨rfl, hk, -⟩ := Lineage.mk.inj (hroot.symm.trans he)
    have hlt := (List.getElem?_eq_some_iff.mp h).1
    rw [ht.logged, hk] at hlt
    exact Nat.lt_irrefl _ hlt
  · obtain ⟨k, r, i, -, -, -, hl⟩ := ht.accepted m (ht.flying m hm)
    exact Lineage.extend_path r.1 i (congrArg Lineage.path (hl.symm.trans he))

omit [DecidableEq B] in
/-- A message that has left the network leaves the others. -/
theorem erase_traced (ht : Traced links n) (index : Nat) :
    Traced links { n with inFlight := n.inFlight.eraseIdx index } :=
  { ht with
    flying := fun m hm => ht.flying m (List.mem_of_mem_eraseIdx hm)
    flyingOnce := ht.flyingOnce.sublist ((List.eraseIdx_sublist ..).map _)
    fresh := fun m hm => ht.fresh m (List.mem_of_mem_eraseIdx hm) }

omit [DecidableEq B] in
theorem erased_ne {l : List (Message B)} {index : Nat} {m m' : Message B}
    (hnodup : (l.map Message.lineage).Nodup) (h : l[index]? = some m)
    (hm : m' ∈ l.eraseIdx index) : m'.lineage ≠ m.lineage := by
  obtain ⟨hlt, rfl⟩ := List.getElem?_eq_some_iff.mp h
  have hperm := (List.getElem_cons_eraseIdx_perm hlt).map Message.lineage
  have hcons := hperm.nodup_iff.mpr hnodup
  rw [List.map_cons, List.nodup_cons] at hcons
  intro he
  exact hcons.1 (he ▸ List.mem_map_of_mem hm)

theorem deliver_traced (ht : Traced links n) {index : Nat} {m : Message B}
    (hm : n.inFlight[index]? = some m) (beyond : Memory) (now : TransportOrder.Timestamp) :
    Traced links ({ n with inFlight := n.inFlight.eraseIdx index }.deliver m beyond now) := by
  have herased := erase_traced ht index
  have hmem : m ∈ n.inFlight := List.mem_of_getElem? hm
  unfold Net.deliver
  split
  · split
    next content _ =>
      obtain ⟨k, r, i, -, -, -, hl⟩ := ht.accepted m (ht.flying m hmem)
      have hpath : m.lineage.path ≠ [] := hl ▸ Lineage.extend_path r.1 i
      exact publish_traced herased (fun h => absurd h hpath)
        (fun _ => ⟨m, ht.flying m hmem, rfl, rfl⟩) (fun c k r h => ht.fresh m hmem c k r h)
        (fun m' hm' => erased_ne ht.flyingOnce hm hm') _ content
    next => exact herased
  · exact herased

omit [DecidableEq B] in
theorem mem_message {describe : Content κ → Memory} {b : B} {a : Nat × Nat} {m : Message B}
    (h : n.message describe b a = some m) : m.source = b ∧ n.target b a.2 = some m.dest ∧
      ∃ r : Lineage B × Content κ, (n.records b)[a.1]? = some r ∧ m.lineage = r.1.extend a.2 := by
  obtain ⟨dest, htarget, h⟩ := Option.bind_eq_some_iff.mp h
  obtain ⟨r, hr, rfl⟩ := Option.map_eq_some_iff.mp h
  exact ⟨rfl, htarget, r, hr, rfl⟩

omit [DecidableEq B] in
/-- What is sent for records not accepted before has not been sent before. -/
theorem new_unsent (ht : Traced links n) {describe : Content κ → Memory} {b : B} {a : Nat × Nat}
    {m : Message B} (hm : n.message describe b a = some m) (ha : a ∉ (n.hub b).accepted) :
    ∀ m' ∈ n.sent, m'.lineage ≠ m.lineage := by
  intro m' hm' he
  obtain ⟨-, -, r, hr, hl⟩ := mem_message hm
  obtain ⟨k', r', i', hr', ha', -, hl'⟩ := ht.accepted m' hm'
  obtain ⟨hlineage, hi⟩ := Lineage.extend_inj (hl'.symm.trans (he.trans hl))
  obtain ⟨hsource, hk⟩ := ht.distinct _ _ _ _ _ _ hr' hr hlineage
  rw [hsource, hk, hi] at ha'
  exact ha ha'

theorem flushed_traced (ht : Traced links n) (describe : Content κ → Memory) {b : B}
    {h : Hub.State (Content κ)} (hf : Flushes (n.hub b) h) :
    Traced links (n.flushed describe b h) := by
  have hnew : ∀ m ∈ (h.accepted.filter fun a => a ∉ (n.hub b).accepted).filterMap
      (n.message describe b), ∃ a, a ∈ h.accepted ∧ a ∉ (n.hub b).accepted ∧
        n.message describe b a = some m := by
    intro m hm
    obtain ⟨a, ha, hsome⟩ := List.mem_filterMap.mp hm
    obtain ⟨hin, hout⟩ := List.mem_filter.mp ha
    exact ⟨a, hin, of_decide_eq_true hout, hsome⟩
  have honce : (((h.accepted.filter fun a => a ∉ (n.hub b).accepted).filterMap
      (n.message describe b)).map Message.lineage).Nodup := by
    rw [List.map_filterMap]
    refine (hf.delivering.sound.once.filter _).filterMap fun a a' l hl hl' => ?_
    obtain ⟨m, hm, rfl⟩ := Option.map_eq_some_iff.mp hl
    obtain ⟨m', hm', he⟩ := Option.map_eq_some_iff.mp hl'
    obtain ⟨-, -, r, hr, hlineage⟩ := mem_message hm
    obtain ⟨-, -, r', hr', hlineage'⟩ := mem_message hm'
    obtain ⟨hsame, hi⟩ := Lineage.extend_inj (hlineage.symm.trans (he.symm.trans hlineage'))
    exact Prod.ext (ht.distinct _ _ _ _ _ _ hr hr' hsame).2 hi
  have hdisjoint : ∀ m ∈ (h.accepted.filter fun a => a ∉ (n.hub b).accepted).filterMap
      (n.message describe b), ∀ m' ∈ n.sent, m'.lineage ≠ m.lineage := by
    intro m hm
    obtain ⟨a, -, hout, hsome⟩ := hnew m hm
    exact new_unsent ht hsome hout
  have happend : ∀ l : List (Message B), (∀ m ∈ l, m ∈ n.sent) → (l.map Message.lineage).Nodup →
      ((l ++ (h.accepted.filter fun a => a ∉ (n.hub b).accepted).filterMap
        (n.message describe b)).map Message.lineage).Nodup := by
    intro l hsub hl
    rw [List.map_append]
    refine hl.append honce fun x hx hx' => ?_
    obtain ⟨m', hm', rfl⟩ := List.mem_map.mp hx
    obtain ⟨m, hm, he⟩ := List.mem_map.mp hx'
    exact hdisjoint m hm m' (hsub m' hm') he.symm
  refine ⟨fun c => ?_, fun c => ?_, ht.along, ht.roots, fun c k r hr hp => ?_, ht.distinct,
    happend _ (fun _ hm => hm) ht.sentOnce, fun m hm => ?_, fun m hm => ?_,
    happend _ ht.flying ht.flyingOnce, fun m hm c k r hr he => ?_⟩
  · show Delivering (Function.update n.hub b _ c)
    by_cases hc : c = b
    · rw [hc, Function.update_self]
      exact hf.delivering
    · rw [Function.update_of_ne hc]
      exact ht.hubs c
  · show _ = (Function.update n.hub b h c).published
    by_cases hc : c = b
    · rw [hc, Function.update_self, hf.published]
      exact ht.logged b
    · rw [Function.update_of_ne hc]
      exact ht.logged c
  · obtain ⟨m, hm, hd⟩ := ht.repeats c k r hr hp
    exact ⟨m, List.mem_append_left _ hm, hd⟩
  · rcases List.mem_append.mp hm with hm | hm
    · obtain ⟨k, r, i, hr, ha, htarget, hl⟩ := ht.accepted m hm
      refine ⟨k, r, i, hr, ?_, htarget, hl⟩
      show _ ∈ (Function.update n.hub b h m.source).accepted
      by_cases hc : m.source = b
      · rw [hc] at ha ⊢
        rw [Function.update_self]
        exact hf.kept _ ha
      · rwa [Function.update_of_ne hc]
    · obtain ⟨a, hin, -, hsome⟩ := hnew m hm
      obtain ⟨hsource, htarget, r, hr, hl⟩ := mem_message hsome
      subst hsource
      refine ⟨a.1, r, a.2, hr, ?_, htarget, hl⟩
      show _ ∈ (Function.update n.hub m.source h m.source).accepted
      rw [Function.update_self]
      exact hin
  · rcases List.mem_append.mp hm with hm | hm
    · exact List.mem_append_left _ (ht.flying m hm)
    · exact List.mem_append_right _ hm
  · rcases List.mem_append.mp hm with hm | hm
    · exact ht.fresh m hm c k r hr he
    · obtain ⟨a, -, -, hsome⟩ := hnew m hm
      obtain ⟨-, -, r', -, hl⟩ := mem_message hsome
      have hpath : r.1.path ≠ [] := by
        rw [he, hl]
        exact Lineage.extend_path _ _
      obtain ⟨m', hm', -, he'⟩ := ht.repeats c k r hr hpath
      exact hdisjoint m hm m' hm' (he'.trans he)

theorem install_traced (ht : Traced links n) (b : B) (fits ethernet : Bool) (target : Option B)
    (hlink : ∀ t, target = some t → links b t) :
    Traced links (n.install b fits ethernet target) := by
  have hd : Delivering (Hub.emplaceSink fits (n.hub b)).2 := (emplaceSink_delivering (ht.hubs b)).1
  unfold Net.install
  rcases emplaceSink_log fits (n.hub b) with ⟨e, he⟩ | ⟨h, he, hpublished, haccepted⟩
  · rw [he]
    exact ht
  · rw [he] at hd ⊢
    refine ⟨fun c => ?_, fun c => ?_, fun c i t htarget => ?_, ht.roots, ht.repeats, ht.distinct,
      ht.sentOnce, fun m hm => ?_, ht.flying, ht.flyingOnce, ht.fresh⟩
    · show Delivering (Function.update n.hub b _ c)
      by_cases hc : c = b
      · rw [hc, Function.update_self]
        exact hd
      · rw [Function.update_of_ne hc]
        exact ht.hubs c
    · show _ = (Function.update n.hub b h c).published
      by_cases hc : c = b
      · rw [hc, Function.update_self, hpublished]
        exact ht.logged b
      · rw [Function.update_of_ne hc]
        exact ht.logged c
    · change Function.update n.target b _ c i = some t at htarget
      by_cases hc : c = b
      · rw [hc, Function.update_self] at htarget
        by_cases hi : i = (n.hub b).sinkCount
        · rw [hi, Function.update_self] at htarget
          exact hc ▸ hlink t htarget
        · rw [Function.update_of_ne hi] at htarget
          exact hc ▸ ht.along b i t htarget
      · rw [Function.update_of_ne hc] at htarget
        exact ht.along c i t htarget
    · obtain ⟨k, r, i, hr, ha, htarget, hl⟩ := ht.accepted m hm
      refine ⟨k, r, i, hr, ?_, ?_, hl⟩
      · show _ ∈ (Function.update n.hub b h m.source).accepted
        by_cases hc : m.source = b
        · rw [hc] at ha ⊢
          rwa [Function.update_self, haccepted]
        · rwa [Function.update_of_ne hc]
      · show Function.update n.target b _ m.source i = some m.dest
        by_cases hc : m.source = b
        · rw [hc] at ha htarget ⊢
          have hi : i ≠ (n.hub b).sinkCount := Nat.ne_of_lt ((ht.hubs b).sound.known _ ha).2
          rwa [Function.update_self, Function.update_of_ne hi]
        · rwa [Function.update_of_ne hc]

variable (describe : Content κ → Memory) (answers : B → Nat → Bool)

theorem op_traced (op : NetOp B κ) (ht : Traced links n)
    (hlink : ∀ b t, op = .installEthernet b (some t) → links b t) :
    Traced links (op.run describe answers n) := by
  cases op with
  | publish b priority content => exact publish_root_traced ht b priority content
  | flush b now now' => exact flushed_traced ht describe (flush_flushes (ht.hubs b) _ _ now now')
  | flushUrgent b now =>
    exact flushed_traced ht describe (flushPending_flushes (ht.hubs b) _ _ true now)
  | installDefault b fits => exact install_traced ht b fits false none nofun
  | installEthernet b target =>
    exact install_traced ht b true true target fun t h => hlink b t (h ▸ rfl)
  | deliver index beyond now =>
    simp only [NetOp.run]
    split
    next m hm => exact deliver_traced ht hm beyond now
    next => exact ht
  | lose index => exact erase_traced ht index

theorem after_concat (ops : List (NetOp B κ)) (op : NetOp B κ) :
    after describe answers (ops ++ [op]) = op.run describe answers (after describe answers ops) :=
  List.foldl_append ..

theorem after_traced {ops : List (NetOp B κ)} (h : Along links ops) :
    Traced links (after describe answers ops) := by
  induction ops using List.reverseRecOn with
  | nil => exact initial_traced
  | append_singleton ops op ih =>
    rw [after_concat]
    refine op_traced describe answers op (ih fun b t hm => h b t (List.mem_append_left _ hm)) ?_
    rintro b t rfl
    exact h b t (List.mem_append_right _ (List.mem_singleton.mpr rfl))

end Steps

/-! ## Links without a cycle -/

/-- The ways of at least one step, and at most `d`, through the sinks. -/
def ways : Nat → List (List Nat)
  | 0 => []
  | d + 1 => (List.range maxSinks).flatMap fun i => [i] :: (ways d).map (i :: ·)

theorem mem_ways {p : List Nat} {d : Nat} (hne : p ≠ []) (hlen : p.length ≤ d)
    (hp : ∀ i ∈ p, i < maxSinks) : p ∈ ways d := by
  induction d generalizing p with
  | zero => exact absurd (List.length_eq_zero_iff.mp (Nat.le_zero.mp hlen)) hne
  | succ d ih =>
    obtain ⟨i, p, rfl⟩ := List.exists_cons_of_ne_nil hne
    refine List.mem_flatMap.mpr ⟨i, List.mem_range.mpr (hp i List.mem_cons_self), ?_⟩
    by_cases hnil : p = []
    · rw [hnil]
      exact List.mem_cons_self
    · refine List.mem_cons_of_mem _ (List.mem_map_of_mem (ih hnil ?_ fun j hj => ?_))
      · exact Nat.le_of_succ_le_succ hlen
      · exact hp j (List.mem_cons_of_mem _ hj)

section Ranked

variable {links : B → B → Prop} {n : Net B κ}

/-- The length of a way is bounded by the ranks that it goes down. -/
theorem record_ranked (ht : Traced links n) {rank : B → Nat}
    (hrank : ∀ a b, links a b → rank b < rank a) {b : B} {k : Nat} {r : Lineage B × Content κ}
    (h : (n.records b)[k]? = some r) :
    rank b + r.1.path.length ≤ rank r.1.board ∧ ∀ i ∈ r.1.path, i < maxSinks := by
  induction hlen : r.1.path.length generalizing b k r with
  | zero =>
    have hnil := List.length_eq_zero_iff.mp hlen
    rw [hnil, ht.roots b k r h hnil]
    exact ⟨Nat.le_refl _, nofun⟩
  | succ len ih =>
    obtain ⟨m, hm, rfl, hl⟩ := ht.repeats b k r h fun hnil => by rw [hnil] at hlen; cases hlen
    obtain ⟨k', r', i, hr', ha, htarget, hl'⟩ := ht.accepted m hm
    have hsame : r.1 = r'.1.extend i := hl.symm.trans hl'
    have hboard : r'.1.board = r.1.board := by rw [hsame]; rfl
    have hpath : r.1.path = r'.1.path ++ [i] := by rw [hsame]; rfl
    rw [hpath, List.length_append] at hlen
    obtain ⟨hle, hsinks⟩ := ih hr' (Nat.succ_inj.mp hlen)
    rw [hboard] at hle
    have hdown := hrank _ _ (ht.along _ _ _ htarget)
    refine ⟨by omega, fun j hj => ?_⟩
    rw [hpath] at hj
    rcases List.mem_append.mp hj with hj | hj
    · exact hsinks j hj
    · obtain rfl := List.mem_singleton.mp hj
      exact Nat.lt_of_lt_of_le ((ht.hubs _).sound.known _ ha).2 (ht.hubs _).sound.sinks

/-- A record that arrives is published at the end of its link. -/
theorem source_eq_dest (ht : Traced links n) {m m' : Message B} {i : Nat} (hm : m ∈ n.sent)
    (hm' : m' ∈ n.sent) (h : m'.lineage = m.lineage.extend i) : m'.source = m.dest := by
  obtain ⟨k, r, j, hr, -, -, hl⟩ := ht.accepted m' hm'
  obtain ⟨hlineage, -⟩ := Lineage.extend_inj (hl.symm.trans h)
  obtain ⟨k₀, r₀, i₀, -, -, -, hl₀⟩ := ht.accepted m hm
  obtain ⟨m₀, hm₀, hdest, he⟩ := ht.repeats _ k r hr (by rw [hlineage, hl₀]; exact Lineage.extend_path _ _)
  have hsame : m₀ = m := List.inj_on_of_nodup_map ht.sentOnce hm₀ hm (he.trans hlineage)
  rw [← hdest, hsame]

theorem link_of_sent (ht : Traced links n) {m : Message B} (hm : m ∈ n.sent) :
    links m.source m.dest := by
  obtain ⟨k, r, i, -, -, htarget, -⟩ := ht.accepted m hm
  exact ht.along _ _ _ htarget

/-- Every message that repeats a record has a way of its own, down the ranks. -/
theorem transmissions_le (ht : Traced links n) [DecidableEq B] {rank : B → Nat}
    (hrank : ∀ a b, links a b → rank b < rank a) {d : Nat} (hd : ∀ b, rank b ≤ d)
    (root : B × Nat) : transmissions root n ≤ (ways d).length := by
  have honce : ((n.sent.filter fun m => (m.lineage.board, m.lineage.seq) = root).map
      fun m => m.lineage.path).Nodup := by
    refine List.Nodup.map_on (fun m hm m' hm' he => ?_)
      ((List.Nodup.of_map _ ht.sentOnce).filter _)
    obtain ⟨hin, hroot⟩ := List.mem_filter.mp hm
    obtain ⟨hin', hroot'⟩ := List.mem_filter.mp hm'
    have hsame := (of_decide_eq_true hroot).trans (of_decide_eq_true hroot').symm
    have hlineage : m.lineage = m'.lineage := by
      cases hl : m.lineage
      cases hl' : m'.lineage
      rw [hl, hl'] at hsame he
      cases hsame
      cases he
      rfl
    exact List.inj_on_of_nodup_map ht.sentOnce hin hin' hlineage
  have hsub : ∀ p ∈ (n.sent.filter fun m => (m.lineage.board, m.lineage.seq) = root).map
      fun m => m.lineage.path, p ∈ ways d := by
    intro p hp
    obtain ⟨m, hm, rfl⟩ := List.mem_map.mp hp
    obtain ⟨k, r, i, hr, ha, htarget, hl⟩ := ht.accepted m (List.mem_filter.mp hm).1
    obtain ⟨hle, hsinks⟩ := record_ranked ht hrank hr
    have hdown := hrank _ _ (ht.along _ _ _ htarget)
    have hboard := hd r.1.board
    have hpath : m.lineage.path = r.1.path ++ [i] := by rw [hl]; rfl
    rw [hpath]
    refine mem_ways (List.append_ne_nil_of_right_ne_nil _ (List.cons_ne_nil _ _)) ?_ fun j hj => ?_
    · rw [List.length_append, List.length_singleton]
      omega
    · rcases List.mem_append.mp hj with hj | hj
      · exact hsinks j hj
      · obtain rfl := List.mem_singleton.mp hj
        exact Nat.lt_of_lt_of_le ((ht.hubs _).sound.known _ ha).2 (ht.hubs _).sound.sinks
  have := (List.subperm_of_subset honce hsub).length_le
  rwa [List.length_map] at this

end Ranked

/-- Boards whose links have no cycle have ranks. -/
theorem exists_rank [Fintype B] {links : B → B → Prop}
    (hacyclic : ∀ b, ¬ Relation.TransGen links b b) :
    ∃ rank : B → Nat, (∀ a b, links a b → rank b < rank a) ∧ ∀ b, rank b ≤ Fintype.card B := by
  classical
  refine ⟨fun b => (Finset.univ.filter fun c => Relation.TransGen links b c).card, fun a b hab => ?_,
    fun b => Finset.card_le_univ _⟩
  have hsub : (Finset.univ.filter fun c => Relation.TransGen links b c) ⊆
      Finset.univ.filter fun c => Relation.TransGen links a c := fun c hc =>
    Finset.mem_filter.mpr ⟨Finset.mem_univ c, .head hab (Finset.mem_filter.mp hc).2⟩
  refine Finset.card_lt_card ((Finset.ssubset_iff_of_subset hsub).mpr ⟨b, ?_, fun hb => ?_⟩)
  · exact Finset.mem_filter.mpr ⟨Finset.mem_univ b, .single hab⟩
  · exact hacyclic b (Finset.mem_filter.mp hb).2

/-! ## Links with a cycle -/

theorem flush_only {R : Type} {h : Hub.State R} (hsinks : h.sinkCount = 1)
    (hpending : h.pendingRecords = []) (content : R) (now : BitVec 64) :
    let h' := Hub.flush true (fun _ => true) now (h.lastNormalFlushUs + 100000#64)
      (Hub.publish .normal content h)
    h'.sinkCount = 1 ∧ h'.pendingRecords = [] ∧ h'.accepted = h.accepted ++ [(h.published, 0)] := by
  have hpublish : Hub.publish .normal content h = Hub.pushPending ⟨h.published, .normal, content⟩
      (Hub.pushHistory ⟨h.published, .normal, content⟩ h) := by
    rw [publish_eq, if_neg (by rw [hsinks]; exact Nat.one_ne_zero)]
  have hdue : ¬ h.lastNormalFlushUs + 100000#64 - h.lastNormalFlushUs < 100000#64 := by
    rw [BitVec.add_comm, BitVec.add_sub_cancel]
    decide
  rw [hpublish]
  simp [Hub.flush, Hub.flushUrgent, Hub.flushPending, Hub.flushRecords, Hub.skips, Hub.askSinks,
    Hub.askSink, Hub.lastFlush, Hub.setLastFlush, Hub.pushHistory, Hub.pushPending,
    Hub.pendingCapacity, Hub.sinkMask, Hub.targetMask, Hub.PendingRecord.seq, List.range_succ,
    hsinks, hpending, hdue]

section Echo

variable [DecidableEq B] {links : B → B → Prop}

/-- Sinks that take every record. -/
def acceptAll (_ : B) (_ : Nat) : Bool := true

/-- The only sink of the board sends to the next one, and nothing waits for it. -/
structure Ready (next : B → B) (n : Net B κ) (b : B) : Prop where
  sinkCount : (n.hub b).sinkCount = 1
  pending : (n.hub b).pendingRecords = []
  registered : n.registered b = true
  target : n.target b 0 = some (next b)

/-- No board has been used, or it is ready. -/
def Prepared (next : B → B) (n : Net B κ) : Prop :=
  ∀ c, n.hub c = Hub.initial _ ∨ Ready next n c

/-- The record published first on the board `root` has been sent `k` times and is on its
way to `b`. -/
structure Echoing (describe : Content κ → Memory) (next : B → B) (root : B × Nat) (k : Nat)
    (n : Net B κ) (b : B) : Prop where
  prepared : Prepared next n
  ready : Ready next n b
  flying : ∃ m record, n.inFlight = [m] ∧ m.dest = b ∧
    m.bytes = transmitted describe blank record ∧ (m.lineage.board, m.lineage.seq) = root
  count : transmissions root n = k

variable (describe : Content κ → Memory) {next : B → B} {n : Net B κ}

theorem install_ready (hp : Prepared next n) (b : B) :
    ∃ ops, (ops = [] ∨ ops = [.installEthernet b (some (next b))]) ∧
      let n' := ops.foldl (NetOp.run describe acceptAll) n
      Prepared next n' ∧ Ready next n' b ∧ n'.inFlight = n.inFlight ∧ n'.sent = n.sent := by
  rcases hp b with hnew | hready
  · have hemplace : Hub.emplaceSink true (n.hub b) =
        (.ok 0, { (Hub.initial (Content κ)) with sinkCount := 1 }) := by
      rw [hnew]
      rfl
    have hinstall : n.install b true true (some (next b)) =
        { n with
          hub := Function.update n.hub b { (Hub.initial (Content κ)) with sinkCount := 1 }
          registered := Function.update n.registered b (n.registered b || true)
          target := Function.update n.target b (Function.update (n.target b) 0 (some (next b))) } := by
      unfold Net.install
      rw [hemplace]
    have hready : Ready next (n.install b true true (some (next b))) b := by
      rw [hinstall]
      refine ⟨?_, ?_, ?_, ?_⟩ <;> simp [Hub.initial]
    refine ⟨_, .inr rfl, fun c => ?_, hready, ?_, ?_⟩
    · show (n.install b true true (some (next b))).hub c = _ ∨
        Ready next (n.install b true true (some (next b))) c
      by_cases hc : c = b
      · exact .inr (hc ▸ hready)
      · rw [hinstall]
        rcases hp c with hold | hold
        · exact .inl ((Function.update_of_ne hc _ _).trans hold)
        · right
          refine ⟨?_, ?_, ?_, ?_⟩
          · simpa [Function.update_of_ne hc] using hold.sinkCount
          · simpa [Function.update_of_ne hc] using hold.pending
          · simpa [Function.update_of_ne hc] using hold.registered
          · simpa [Function.update_of_ne hc] using hold.target
    · show (n.install b true true (some (next b))).inFlight = n.inFlight
      rw [hinstall]
    · show (n.install b true true (some (next b))).sent = n.sent
      rw [hinstall]
  · exact ⟨[], .inl rfl, hp, hready, rfl, rfl⟩

theorem emit (ht : Traced links n) (hp : Prepared next n) {b : B} (hb : Ready next n b)
    (hflying : n.inFlight = []) (content : Content κ) (l : Lineage B) :
    let n' := (n.publish b .normal content l).flushed describe b
      (Hub.flush true (acceptAll b) 0#64 ((n.hub b).lastNormalFlushUs + 100000#64)
        (Hub.publish .normal content (n.hub b)))
    Prepared next n' ∧ ∃ m, n'.inFlight = [m] ∧ n'.sent = n.sent ++ [m] ∧ m.dest = next b ∧
      m.bytes = transmitted describe blank content ∧ m.lineage = l.extend 0 := by
  intro n'
  obtain ⟨hsinks, hpending, haccepted⟩ := flush_only hb.sinkCount hb.pending content 0#64
  have hold : (Hub.publish .normal content (n.hub b)).accepted = (n.hub b).accepted :=
    (publish_log .normal content (n.hub b)).2
  have hnew : (n.hub b).accepted.filter (fun a => a ∉ (n.hub b).accepted) = [] := by
    rw [List.filter_eq_nil_iff]
    exact fun a ha hout => of_decide_eq_true hout ha
  have hlast : ((n.hub b).published, 0) ∉ (n.hub b).accepted := fun hm =>
    Nat.lt_irrefl _ ((ht.hubs b).sound.known _ hm).1
  have hmessage : (n.publish b .normal content l).message describe b ((n.hub b).published, 0) =
      some ⟨b, next b, transmitted describe blank content, l.extend 0⟩ := by
    unfold Net.message
    show ((n.target b 0).bind fun dest => ((Function.update n.records b _ b)[_]?).map _) = _
    rw [hb.target, Function.update_self, ← ht.logged, List.getElem?_concat_length]
    rfl
  have hsent : n'.inFlight = n.inFlight ++ [⟨b, next b, transmitted describe blank content, l.extend 0⟩] ∧
      n'.sent = n.sent ++ [⟨b, next b, transmitted describe blank content, l.extend 0⟩] := by
    have hlist : ((Hub.flush true (acceptAll b) 0#64 ((n.hub b).lastNormalFlushUs + 100000#64)
        (Hub.publish .normal content (n.hub b))).accepted.filter fun a =>
          a ∉ ((n.publish b .normal content l).hub b).accepted).filterMap
            ((n.publish b .normal content l).message describe b) =
        [⟨b, next b, transmitted describe blank content, l.extend 0⟩] := by
      show ((Hub.flush true (fun _ => true) _ _ _).accepted.filter fun a =>
        a ∉ (Function.update n.hub b _ b).accepted).filterMap _ = _
      rw [Function.update_self, hold, haccepted, List.filter_append, hnew, List.nil_append,
        List.filter_singleton, decide_eq_true hlast, cond_true, List.filterMap_cons_some hmessage]
      rfl
    exact ⟨congrArg (n.inFlight ++ ·) hlist, congrArg (n.sent ++ ·) hlist⟩
  refine ⟨fun c => ?_, _, by rw [hsent.1, hflying]; rfl, hsent.2, rfl, rfl, rfl⟩
  by_cases hc : c = b
  · subst hc
    right
    refine ⟨?_, ?_, hb.registered, hb.target⟩
    · show (Function.update (n.publish c .normal content l).hub c _ c).sinkCount = 1
      rw [Function.update_self]
      exact hsinks
    · show (Function.update (n.publish c .normal content l).hub c _ c).pendingRecords = []
      rw [Function.update_self]
      exact hpending
  · have hsame : n'.hub c = n.hub c := by
      show Function.update (Function.update n.hub b _) b _ c = _
      rw [Function.update_of_ne hc, Function.update_of_ne hc]
    rcases hp c with hc' | hc'
    · exact .inl (hsame.trans hc')
    · exact .inr ⟨hsame ▸ hc'.sinkCount, hsame ▸ hc'.pending, hc'.registered, hc'.target⟩

theorem transmissions_snoc {n n' : Net B κ} {m : Message B} {root : B × Nat}
    (hsent : n'.sent = n.sent ++ [m]) (hroot : (m.lineage.board, m.lineage.seq) = root) :
    transmissions root n' = transmissions root n + 1 := by
  unfold transmissions
  rw [hsent, List.filter_append, List.length_append, List.filter_singleton,
    decide_eq_true hroot, cond_true, List.length_singleton]

/-- A record published on a ready board is on its way to the next one, which is made ready
for it. -/
theorem sendOn (ht : Traced links n) (hp : Prepared next n) {b : B} (hb : Ready next n b)
    (hflying : n.inFlight = []) (content : Content κ) (l : Lineage B) {root : B × Nat}
    (hroot : (l.board, l.seq) = root) : ∃ ops : List (NetOp B κ),
      (∀ c t, .installEthernet c (some t) ∈ ops → c = next b ∧ t = next (next b)) ∧
      Echoing describe next root (transmissions root n + 1)
        (ops.foldl (NetOp.run describe acceptAll) (n.publish b .normal content l)) (next b) := by
  obtain ⟨hp', m, hinFlight, hsent, hdest, hbytes, hl⟩ := emit describe ht hp hb hflying content l
  obtain ⟨ops, hops, hprepared, hready, hfly, hsame⟩ := install_ready describe hp' (next b)
  have hflush : NetOp.run describe acceptAll (n.publish b .normal content l)
      (.flush b 0#64 ((n.hub b).lastNormalFlushUs + 100000#64)) =
        (n.publish b .normal content l).flushed describe b
          (Hub.flush true (acceptAll b) 0#64 ((n.hub b).lastNormalFlushUs + 100000#64)
            (Hub.publish .normal content (n.hub b))) := by
    show (n.publish b .normal content l).flushed describe b
      (Hub.flush true (acceptAll b) _ _ (Function.update n.hub b _ b)) = _
    rw [Function.update_self]
  have hmroot : (m.lineage.board, m.lineage.seq) = root := by
    rw [hl]
    exact hroot
  refine ⟨.flush b 0#64 ((n.hub b).lastNormalFlushUs + 100000#64) :: ops, fun c t hm => ?_, ?_⟩
  · rcases hops with rfl | rfl
    · rcases List.mem_singleton.mp hm with h
      cases h
    · rcases List.mem_cons.mp hm with h | h
      · cases h
      · cases List.mem_singleton.mp h
        exact ⟨rfl, rfl⟩
  · rw [List.foldl_cons, hflush]
    exact ⟨hprepared, hready, ⟨m, content, hfly.trans hinFlight, hdest, hbytes, hmroot⟩,
      (transmissions_snoc (hsame.trans hsent) hmroot).trans rfl⟩

/-- One more hop. -/
theorem hop (ht : Traced links n) {b : B} {root : B × Nat} {k : Nat}
    (he : Echoing describe next root k n b) : ∃ ops : List (NetOp B κ),
      (∀ c t, .installEthernet c (some t) ∈ ops → c = next b ∧ t = next (next b)) ∧
      Echoing describe next root (k + 1) (ops.foldl (NetOp.run describe acceptAll) n) (next b) := by
  obtain ⟨m, record, hfly, rfl, hbytes, hroot⟩ := he.flying
  obtain ⟨content, hcontent⟩ :=
    received_transmitted describe record (fun _ => 0#8) ({} : TransportOrder.Timestamp)
  have hdeliver : NetOp.run describe acceptAll n (.deliver 0 (fun _ => 0#8) {}) =
      ({ n with inFlight := [] } : Net B κ).publish m.dest .normal content m.lineage := by
    simp only [NetOp.run, hfly, List.getElem?_cons_zero, List.eraseIdx_cons_zero, Net.deliver,
      he.ready.registered, if_true, hbytes, hcontent]
  have herased := erase_traced ht 0
  rw [hfly, List.eraseIdx_cons_zero] at herased
  have hprepared : Prepared next ({ n with inFlight := [] } : Net B κ) := fun c =>
    (he.prepared c).imp_right fun h => ⟨h.sinkCount, h.pending, h.registered, h.target⟩
  obtain ⟨ops, hops, hnext⟩ := sendOn describe herased hprepared
    ⟨he.ready.sinkCount, he.ready.pending, he.ready.registered, he.ready.target⟩ rfl content
    m.lineage hroot
  refine ⟨.deliver 0 (fun _ => 0#8) {} :: ops, fun c t hm => ?_, ?_⟩
  · rcases List.mem_cons.mp hm with h | h
    · cases h
    · exact hops c t h
  · rw [List.foldl_cons, hdeliver, ← he.count]
    exact hnext

/-- Along links that go on for ever a record is sent again and again. -/
theorem echoes {P : B → Prop} (hnext : ∀ b, P b → links b (next b) ∧ P (next b)) {b₀ : B}
    (h₀ : P b₀) : ∃ root : B × Nat, ∀ k, ∃ (ops : List (NetOp B κ)) (b : B), Along links ops ∧
      P b ∧ Echoing describe next root (k + 1) (after describe acceptAll ops) b := by
  have hnew : Prepared next (initial B κ) := fun _ => .inl rfl
  obtain ⟨first, hfirst, hprepared, hready, hfly, hsent⟩ := install_ready describe hnew b₀
  have halong : Along links first := by
    intro c t hm
    rcases hfirst with rfl | rfl
    · cases hm
    · cases List.mem_singleton.mp hm
      exact (hnext b₀ h₀).1
  have hgrow : ∀ {ops more : List (NetOp B κ)} {b : B}, Along links ops → P b →
      (∀ c t, .installEthernet c (some t) ∈ more → c = next b ∧ t = next (next b)) →
      Along links (ops ++ more) := by
    intro ops more b halong hb hmore c t hm
    rcases List.mem_append.mp hm with h | h
    · exact halong c t h
    · obtain ⟨rfl, rfl⟩ := hmore c t h
      exact (hnext _ (hnext b hb).2).1
  refine ⟨(b₀, ((after describe acceptAll first).hub b₀).published), fun k => ?_⟩
  induction k with
  | zero =>
    obtain ⟨more, hmore, he⟩ := sendOn describe (after_traced describe acceptAll halong) hprepared
      hready hfly default { board := b₀, seq := ((after describe acceptAll first).hub b₀).published }
      rfl
    refine ⟨first ++ .publish b₀ .normal default :: more, next b₀, ?_, (hnext b₀ h₀).2, ?_⟩
    · refine hgrow halong h₀ fun c t hm => ?_
      rcases List.mem_cons.mp hm with h | h
      · cases h
      · exact hmore c t h
    · have hzero : transmissions (b₀, ((after describe acceptAll first).hub b₀).published)
          (after describe acceptAll first) = 0 := by
        unfold transmissions after
        rw [hsent]
        rfl
      rw [hzero] at he
      show Echoing _ _ _ _ ((first ++ _).foldl _ _) _
      rw [List.foldl_append]
      exact he
  | succ k ih =>
    obtain ⟨ops, b, halong, hb, he⟩ := ih
    obtain ⟨more, hmore, hnext'⟩ := hop describe (after_traced describe acceptAll halong) he
    refine ⟨ops ++ more, next b, hgrow halong hb hmore, (hnext b hb).2, ?_⟩
    show Echoing _ _ _ _ ((ops ++ more).foldl _ _) _
    rw [List.foldl_append]
    exact hnext'

/-- A cycle of links sends a record as often as one likes. -/
theorem unbounded_of_cycle {b₀ : B} (hcycle : Relation.TransGen links b₀ b₀) :
    ∃ root : B × Nat, ∀ k, ∃ ops, Along links ops ∧
      k < transmissions root (after describe acceptAll ops) := by
  classical
  have hstep : ∀ b, Relation.TransGen links b b → ∃ c, links b c ∧ Relation.TransGen links c c := by
    intro b hb
    rcases Relation.TransGen.head'_iff.mp hb with ⟨c, hbc, hcb⟩
    exact ⟨c, hbc, .tail' hcb hbc⟩
  let next : B → B := fun b =>
    if h : Relation.TransGen links b b then (hstep b h).choose else b
  have hnext : ∀ b, Relation.TransGen links b b →
      links b (next b) ∧ Relation.TransGen links (next b) (next b) := by
    intro b hb
    show links b (dite _ _ _) ∧ Relation.TransGen links (dite _ _ _) (dite _ _ _)
    rw [dif_pos hb]
    exact (hstep b hb).choose_spec
  obtain ⟨root, hroot⟩ := echoes (κ := κ) describe hnext hcycle
  refine ⟨root, fun k => ?_⟩
  obtain ⟨ops, b, halong, -, he⟩ := hroot k
  exact ⟨ops, halong, he.count ▸ Nat.lt_succ_self k⟩

end Echo

/-! ## Main result -/

/-- A record that a board has received is not sent to the board it came from. -/
def NoReturn (n : Net B κ) : Prop :=
  ∀ m ∈ n.sent, ∀ m' ∈ n.sent, ∀ i, m'.lineage = m.lineage.extend i → m'.dest ≠ m.source

/-- **No diagnostic echo**: along given links between the boards, every record is sent a
bounded number of times in every run, and never back to where it came from, exactly when
the links have no cycle. -/
theorem echo_free_iff [Fintype B] [DecidableEq B]
    (describe : Content κ → Memory) (links : B → B → Prop) :
    (∃ bound, ∀ (answers : B → Nat → Bool) (ops : List (NetOp B κ)), Along links ops →
      (∀ root, transmissions root (after describe answers ops) ≤ bound) ∧
        NoReturn (after describe answers ops)) ↔
    ∀ b, ¬ Relation.TransGen links b b := by
  constructor
  · rintro ⟨bound, hbound⟩ b hcycle
    obtain ⟨root, hroot⟩ := unbounded_of_cycle describe hcycle
    obtain ⟨ops, halong, hlt⟩ := hroot bound
    exact Nat.lt_irrefl _ (Nat.lt_of_lt_of_le hlt ((hbound acceptAll ops halong).1 root))
  · intro hacyclic
    obtain ⟨rank, hrank, hcard⟩ := exists_rank hacyclic
    refine ⟨(ways (Fintype.card B)).length, fun answers ops halong => ?_⟩
    have ht := after_traced describe answers halong
    refine ⟨transmissions_le ht hrank hcard, fun m hm m' hm' i hl hback => ?_⟩
    have hout := hrank _ _ (link_of_sent ht hm)
    have hin := hrank _ _ (link_of_sent ht hm')
    rw [source_eq_dest ht hm hm' hl, hback] at hin
    omega

/-- **Two boards that send to each other** do not stop. -/
theorem two_boards_echo : ¬ ∀ (describe : Content Unit → Memory) (links : Bool → Bool → Prop)
    (root : Bool × Nat), ∃ bound, ∀ (answers : Bool → Nat → Bool) (ops : List (NetOp Bool Unit)),
      Along links ops → transmissions root (after describe answers ops) ≤ bound := by
  intro h
  have hcycle : Relation.TransGen (fun a b : Bool => a ≠ b) true true :=
    .tail (.single (b := false) nofun) nofun
  obtain ⟨root, hroot⟩ := unbounded_of_cycle (fun _ : Content Unit => literal "") hcycle
  obtain ⟨bound, hbound⟩ := h (fun _ => literal "") (fun a b => a ≠ b) root
  obtain ⟨ops, halong, hlt⟩ := hroot bound
  exact Nat.lt_irrefl _ (Nat.lt_of_lt_of_le hlt (hbound acceptAll ops halong))

end Network

end StLib.Diagnostics.EchoFree
