import StLib.Base.Runs
import StLib.StateMachine.Model

/-! # The active path

`Entered F P w`: the states entered and not exited are the list `P`, and besides
the slots `F` of others the scheduler holds exactly their cyclic actions. Entering
and exiting one state keep it for the longer and the shorter list; a state change
keeps it for the active path as long as the machine bound to the state left, and
the one bound to the state entered, have nothing active below them
(`ChangeOk`). -/
namespace StLib.StateMachine.Activity

open StLib.Base.Runs
open StLib.Scheduler.Model StLib.Scheduler.Steps StLib.Scheduler.Invariant
open StLib.StateMachine.TimedActions StLib.StateMachine.Model

variable {υ : Type}

/-! ## Callbacks that leave the machines alone -/

/-- `w'` is `w` up to the state of the program around. -/
def OnlyUser (w w' : World υ) : Prop := w' = { w with user := w'.user }

theorem OnlyUser.refl (w : World υ) : OnlyUser w w := rfl

theorem OnlyUser.trans {w w' w'' : World υ} (h : OnlyUser w w') (h' : OnlyUser w' w'') :
    OnlyUser w w'' := by
  unfold OnlyUser at *
  rw [h', h]

/-- No callback calls back into the machines or the scheduler. -/
structure Inert (h : Hooks υ) : Prop where
  action : ∀ c w, OnlyUser w (h.action c w)
  predicate : ∀ g w, OnlyUser w (h.predicate g w).2
  panic : ∀ msg w, OnlyUser w (h.panic msg w)
  addStateOrders : ∀ ids w, OnlyUser w (h.addStateOrders ids w)
  removeStateOrders : ∀ ids w, OnlyUser w (h.removeStateOrders ids w)

section inert
variable {h : Hooks υ} (hi : Inert h)
include hi

theorem runActions_onlyUser : ∀ (l : List (Option Callback)) (w : World υ),
    OnlyUser w (runActions h l w)
  | [], w => .refl w
  | none :: rest, w => runActions_onlyUser rest w
  | some c :: rest, w => (hi.action c w).trans (runActions_onlyUser rest _)

theorem firstTrue_onlyUser : ∀ (l : List Transition) (w : World υ),
    OnlyUser w (firstTrue h l w).2
  | [], w => .refl w
  | t :: rest, w => by
    rw [firstTrue]
    split
    · exact hi.predicate _ w
    · exact (hi.predicate _ w).trans (firstTrue_onlyUser rest _)

theorem removeStateOrders_onlyUser (m : Machine) (π : Addr) (w : World υ) :
    OnlyUser w (m.removeStateOrders h π w) := by
  unfold Machine.removeStateOrders
  dsimp only
  split
  · exact hi.removeStateOrders _ w
  · exact .refl w

theorem refreshStateOrders_onlyUser (m : Machine) (π : Addr) (w : World υ) :
    OnlyUser w (m.refreshStateOrders h π w) := by
  unfold Machine.refreshStateOrders
  dsimp only
  split
  · exact hi.addStateOrders _ w
  · exact .refl w

end inert

/-! ## The states entered -/

/-- The slots of the cyclic actions of the states `P`. -/
def heldSlots (w : World υ) (P : List (Addr × Nat)) : List Slot :=
  P.flatMap fun x => slots (w.cyclicActions x.1 x.2)

/-- The number of cyclic actions of a state that can be registered. -/
def load (w : World υ) (x : Addr × Nat) : Nat :=
  (w.cyclicActions x.1 x.2).countP fun a => a.action.isSome

/-- Besides the slots `F` the scheduler holds cyclic actions of the states `P` only,
each in a slot of its own. -/
structure Held (F : Finset Slot) (P : List (Addr × Nat)) (w : World υ) : Prop where
  nodup : P.Nodup
  off : ∀ x, x ∉ P → ∀ a ∈ w.cyclicActions x.1 x.2, a.isOn = false
  registered : ∀ x ∈ P, ∀ a ∈ w.cyclicActions x.1 x.2, a.isOn = true → Registered w.sched a
  distinct : (heldSlots w P).Nodup
  foreign : ∀ i ∈ F, i ∉ heldSlots w P
  taken : ∀ i, w.sched.isFree i = false ↔ i ∈ F ∨ i ∈ heldSlots w P
  sound : Sound w.sched

/-- The states `P` are the ones entered, and the scheduler holds all their cyclic
actions. -/
structure Entered (F : Finset Slot) (P : List (Addr × Nat)) (w : World υ) : Prop
    extends Held F P w where
  opened : (openStates w.trace).Perm P
  on : ∀ x ∈ P, ∀ a ∈ w.cyclicActions x.1 x.2, a.isOn = a.action.isSome

/-- The cyclic actions of the states `P` have accepted periods and fit in the slots
that are not in `F`. -/
def Fits (F : Finset Slot) (w : World υ) (P : List (Addr × Nat)) : Prop :=
  (∀ x ∈ P, ∀ a ∈ w.cyclicActions x.1 x.2, a.action.isSome = true → Accepted a) ∧
    (P.map (load w)).sum + F.card ≤ 16

/-- `w'` has the cyclic actions of `w`, up to their ids and flags. -/
def SameActions (w w' : World υ) : Prop :=
  ∀ π s, List.Forall₂ SameAction (w.cyclicActions π s) (w'.cyclicActions π s)

theorem SameActions.refl (w : World υ) : SameActions w w :=
  fun _ _ => List.forall₂_same.mpr fun _ _ => ⟨rfl, rfl, rfl⟩

theorem sameAction_trans {a b c : TimedAction} (h : SameAction a b) (h' : SameAction b c) :
    SameAction a c :=
  ⟨h'.1.trans h.1, h'.2.1.trans h.2.1, h'.2.2.trans h.2.2⟩

theorem forall₂_trans : ∀ {l m n : List TimedAction}, List.Forall₂ SameAction l m →
    List.Forall₂ SameAction m n → List.Forall₂ SameAction l n
  | _, _, _, .nil, .nil => .nil
  | _, _, _, .cons h t, .cons h' t' => .cons (sameAction_trans h h') (forall₂_trans t t')

theorem SameActions.trans {w w' w'' : World υ} (h : SameActions w w') (h' : SameActions w' w'') :
    SameActions w w'' :=
  fun π s => forall₂_trans (h π s) (h' π s)

theorem load_forall₂ : ∀ {l m : List TimedAction}, List.Forall₂ SameAction l m →
    (m.countP fun a => a.action.isSome) = l.countP fun a => a.action.isSome
  | _, _, .nil => rfl
  | _, _, .cons h t => by rw [List.countP_cons, List.countP_cons, load_forall₂ t, h.1]

theorem periodUs_congr {a b : TimedAction} (h : SameAction a b) : b.periodUs = a.periodUs := by
  unfold TimedAction.periodUs
  rw [h.2.1, h.2.2]

theorem accepted_forall₂ : ∀ {l m : List TimedAction}, List.Forall₂ SameAction l m →
    (∀ a ∈ l, a.action.isSome = true → Accepted a) →
    ∀ a ∈ m, a.action.isSome = true → Accepted a := by
  intro l m hsame
  induction hsame with
  | nil => exact fun _ a ha => absurd ha List.not_mem_nil
  | cons h _ ih =>
    intro hacc
    obtain ⟨ha, hl⟩ := List.forall_mem_cons.mp hacc
    refine List.forall_mem_cons.mpr ⟨fun hb => ?_, ih hl⟩
    rw [Accepted, periodUs_congr h]
    exact ha (by rw [← h.1]; exact hb)

/-- What fits depends on the fixed part of the cyclic actions only. -/
theorem Fits.congr {F : Finset Slot} {w w' : World υ} {P : List (Addr × Nat)} (h : Fits F w P)
    (hs : SameActions w w') : Fits F w' P := by
  obtain ⟨hacc, hsum⟩ := h
  refine ⟨fun x hx => accepted_forall₂ (hs x.1 x.2) (hacc x hx), ?_⟩
  have : P.map (load w') = P.map (load w) := List.map_congr_left fun x _ => load_forall₂ (hs x.1 x.2)
  rwa [this]

theorem Fits.prefix {F : Finset Slot} {w : World υ} {P Q : List (Addr × Nat)}
    (h : Fits F w (P ++ Q)) : Fits F w P := by
  obtain ⟨hacc, hsum⟩ := h
  refine ⟨fun x hx => hacc x (List.mem_append_left _ hx), ?_⟩
  rw [List.map_append, List.sum_append] at hsum
  omega

theorem setCyclicActions_eq (w : World υ) (π : Addr) (s : Nat) (l : List TimedAction)
    (y : Addr × Nat) : (w.setCyclicActions π s l).cyclicActions y.1 y.2 =
      if y = (π, s) then l else w.cyclicActions y.1 y.2 := by
  obtain ⟨ρ, r⟩ := y
  simp only [World.setCyclicActions, Prod.mk.injEq]
  by_cases hρ : ρ = π
  · subst hρ
    by_cases hr : r = s <;> simp [hr]
  · simp [hρ]

theorem heldSlots_congr {w w' : World υ} {P : List (Addr × Nat)}
    (h : ∀ x ∈ P, w'.cyclicActions x.1 x.2 = w.cyclicActions x.1 x.2) :
    heldSlots w' P = heldSlots w P := by
  rw [heldSlots, heldSlots, List.flatMap_def, List.flatMap_def]
  congr 1
  exact List.map_congr_left fun x hx => by rw [h x hx]

namespace Held

variable {F : Finset Slot} {P Q : List (Addr × Nat)} {w w' : World υ} {x : Addr × Nat}

theorem congr (h : Held F P w) (hc : w'.cyclicActions = w.cyclicActions)
    (hs : w'.sched = w.sched) : Held F P w' := by
  have hheld : heldSlots w' P = heldSlots w P := by simp only [heldSlots, hc]
  refine ⟨h.nodup, ?_, ?_, ?_, ?_, ?_, hs ▸ h.sound⟩
  · rw [hc]; exact h.off
  · rw [hc, hs]; exact h.registered
  · rw [hheld]; exact h.distinct
  · rw [hheld]; exact h.foreign
  · rw [hheld, hs]; exact h.taken

theorem perm (h : Held F P w) (hp : P.Perm Q) : Held F Q w := by
  have hheld : (heldSlots w P).Perm (heldSlots w Q) := hp.flatMap_right _
  refine ⟨hp.nodup_iff.mp h.nodup, ?_, ?_, hheld.nodup_iff.mp h.distinct, ?_, ?_, h.sound⟩
  · exact fun x hx => h.off x fun hx' => hx (hp.mem_iff.mp hx')
  · exact fun x hx => h.registered x (hp.mem_iff.mpr hx)
  · exact fun i hi hi' => h.foreign i hi (hheld.mem_iff.mpr hi')
  · intro i
    rw [h.taken i, hheld.mem_iff]

/-- Unregistering the cyclic actions of a state. -/
theorem unregister {π : Addr} {s : Nat} (h : Held F ((π, s) :: Q) w) :
    Held F Q (unregisterAllTimedActions π s w) ∧
      List.Forall₂ SameAction (w.cyclicActions π s)
        ((unregisterAllTimedActions π s w).cyclicActions π s) := by
  have hnx : (π, s) ∉ Q := (List.nodup_cons.mp h.nodup).1
  have hheld : heldSlots w ((π, s) :: Q) = slots (w.cyclicActions π s) ++ heldSlots w Q := by
    simp [heldSlots]
  have hdist := h.distinct
  rw [hheld, List.nodup_append] at hdist
  obtain ⟨hnd, hndQ, hcross⟩ := hdist
  have hun := unregisterAll_spec (h.registered (π, s) (by simp)) hnd
  unfold unregisterAllTimedActions
  generalize unregisterAll (w.cyclicActions π s) w.sched = r at hun
  obtain ⟨l', s'⟩ := r
  have hset := setCyclicActions_eq w π s l'
  have hself : (w.setCyclicActions π s l').cyclicActions π s = l' := by
    have := hset (π, s)
    simpa using this
  let v : World υ := { w.setCyclicActions π s l' with sched := s' }
  have hheldQ : heldSlots v Q = heldSlots w Q :=
    heldSlots_congr fun y hy => by
      show (w.setCyclicActions π s l').cyclicActions y.1 y.2 = _
      rw [hset, if_neg fun e : y = (π, s) => hnx (e ▸ hy)]
  refine ⟨⟨(List.nodup_cons.mp h.nodup).2, ?_, ?_, ?_, ?_, ?_, hun.sound h.sound⟩, ?_⟩
  · intro y hy
    show ∀ a ∈ (w.setCyclicActions π s l').cyclicActions y.1 y.2, _
    rw [hset]
    split
    next => exact hun.off
    next hne => exact h.off y (by simp [hy, hne])
  · intro y hy
    show ∀ a ∈ (w.setCyclicActions π s l').cyclicActions y.1 y.2, _
    rw [hset, if_neg fun e : y = (π, s) => hnx (e ▸ hy)]
    intro a ha hon
    have hreg := h.registered y (List.mem_cons_of_mem _ hy) a ha hon
    have hmem : a.slot ∈ heldSlots w Q := List.mem_flatMap.mpr ⟨y, hy, mem_slots ha hon⟩
    have hni : a.slot ∉ slots (w.cyclicActions π s) := fun hm => hcross _ hm _ hmem rfl
    refine hreg.congr ?_ (congrFun hun.tasks _)
    show s'.isFree a.slot = false
    rw [hun.free, hreg.taken]
    simp [hni]
  · exact hheldQ ▸ hndQ
  · intro i hiF hi'
    exact h.foreign i hiF (by rw [hheld]; exact List.mem_append_right _ (hheldQ ▸ hi'))
  · intro i
    show s'.isFree i = false ↔ i ∈ F ∨ i ∈ heldSlots v Q
    rw [hheldQ]
    have htaken := h.taken i
    rw [hheld, List.mem_append] at htaken
    rw [hun.free i, Bool.or_eq_false_iff, htaken, decide_eq_false_iff_not]
    constructor
    · rintro ⟨hF | hl | hQ, hni⟩
      · exact .inl hF
      · exact absurd hl hni
      · exact .inr hQ
    · rintro (hF | hQ)
      · exact ⟨.inl hF, fun hl => h.foreign i hF (by rw [hheld]; exact List.mem_append_left _ hl)⟩
      · exact ⟨.inr (.inr hQ), fun hl => hcross _ hl _ hQ rfl⟩
  · show List.Forall₂ SameAction _ ((w.setCyclicActions π s l').cyclicActions π s)
    rw [hself]
    exact hun.same

/-- A state whose cyclic actions are off may be counted among the holders. -/
theorem cons (h : Held F Q w) (hx : x ∉ Q) : Held F (x :: Q) w := by
  have hoff := h.off x hx
  have hnone : slots (w.cyclicActions x.1 x.2) = [] := by
    rw [slots, List.filter_eq_nil_iff.mpr fun a ha => by rw [hoff a ha]; exact Bool.false_ne_true]
    rfl
  have hheld : heldSlots w (x :: Q) = heldSlots w Q := by
    show slots (w.cyclicActions x.1 x.2) ++ heldSlots w Q = _
    rw [hnone, List.nil_append]
  refine ⟨List.nodup_cons.mpr ⟨hx, h.nodup⟩, ?_, ?_, hheld ▸ h.distinct, ?_, ?_, h.sound⟩
  · exact fun y hy => h.off y fun hq => hy (List.mem_cons_of_mem _ hq)
  · intro y hy a ha hon
    rcases List.mem_cons.mp hy with rfl | hy
    · rw [hoff a ha] at hon
      cases hon
    · exact h.registered y hy a ha hon
  · rw [hheld]; exact h.foreign
  · rw [hheld]; exact h.taken

/-- Unregistering the cyclic actions of any state keeps the holders among `P`. -/
theorem keep (h : Held F P w) (π : Addr) (s : Nat) :
    Held F P (unregisterAllTimedActions π s w) := by
  by_cases hx : (π, s) ∈ P
  · have hp := List.perm_cons_erase hx
    have hend := (h.perm hp).unregister.1
    exact (hend.cons (List.nodup_cons.mp (h.perm hp).nodup).1).perm hp.symm
  · exact (h.cons hx).unregister.1

end Held

/-- A state with null cyclic actions registers nothing. -/
theorem register_null (h : Hooks υ) {π : Addr} {s : Nat} {w : World υ}
    (hnull : ∀ a ∈ w.cyclicActions π s, a.action = none) :
    registerAllTimedActions h π s w = w := by
  have hloop : ∀ (l done : List TimedAction) (sched : State), (∀ a ∈ l, a.action = none) →
      registerLoop done l sched = (done ++ l, sched, true) := by
    intro l
    induction l with
    | nil => intro done sched _; rw [registerLoop, List.append_nil]
    | cons a rest ih =>
      intro done sched hl
      rw [registerLoop, if_pos (by rw [hl a (by simp)]; rfl),
        ih _ _ fun b hb => hl b (List.mem_cons_of_mem _ hb), List.append_assoc]
      rfl
  unfold registerAllTimedActions
  rw [registerAll, hloop _ [] _ hnull]
  simp [World.setCyclicActions]

namespace Entered

variable {F : Finset Slot} {P Q : List (Addr × Nat)} {w w' : World υ} {x : Addr × Nat}

/-- The state of the program around and the current states do not matter. -/
theorem congr (h : Entered F P w) (ht : w'.trace = w.trace)
    (hc : w'.cyclicActions = w.cyclicActions) (hs : w'.sched = w.sched) : Entered F P w' :=
  ⟨h.toHeld.congr hc hs, ht ▸ h.opened, by rw [hc]; exact h.on⟩

theorem onlyUser (h : Entered F P w) (hu : OnlyUser w w') : Entered F P w' := by
  unfold OnlyUser at hu
  rw [hu]
  exact h.congr rfl rfl rfl

theorem perm (h : Entered F P w) (hp : P.Perm Q) : Entered F Q w :=
  ⟨h.toHeld.perm hp, h.opened.trans hp, fun x hx => h.on x (hp.mem_iff.mpr hx)⟩

/-- The slots held are as many as the cyclic actions of the states entered. -/
theorem length_heldSlots (h : Entered F P w) :
    (heldSlots w P).length = (P.map (load w)).sum := by
  rw [heldSlots, List.length_flatMap]
  congr 1
  refine List.map_congr_left fun x hx => ?_
  rw [slots, List.length_map, load, List.countP_eq_length_filter]
  exact congrArg List.length (List.filter_congr fun a ha => h.on x hx a ha)

/-- The free slots are what `F` and the states entered leave. -/
theorem freeCount_eq (h : Entered F P w) :
    freeCount w.sched + (F.card + (P.map (load w)).sum) = 16 := by
  have hset : (Finset.univ.filter fun i => w.sched.isFree i = true) =
      Finset.univ \ (F ∪ (heldSlots w P).toFinset) := by
    ext i
    have := h.taken i
    cases hf : w.sched.isFree i <;> simp [hf] at this ⊢
    · exact fun hi => (this.resolve_left hi)
    · exact this
  have hdisj : Disjoint F (heldSlots w P).toFinset := by
    rw [Finset.disjoint_left]
    exact fun i hi hi' => h.foreign i hi (List.mem_toFinset.mp hi')
  have hcard : (F ∪ (heldSlots w P).toFinset).card = F.card + (P.map (load w)).sum := by
    rw [Finset.card_union_of_disjoint hdisj, List.toFinset_card_of_nodup h.distinct,
      h.length_heldSlots]
  have hle := Finset.card_le_univ (F ∪ (heldSlots w P).toFinset)
  rw [freeCount, hset, Finset.card_sdiff_of_subset (Finset.subset_univ _), hcard, Finset.card_univ,
    Fintype.card_fin]
  rw [hcard, Fintype.card_fin] at hle
  omega

end Entered

/-! ## Entering and exiting one state -/

/-- What an operation on other states leaves alone. -/
structure Frame (w w' : World υ) : Prop where
  actions : SameActions w w'
  current : w'.currentState = w.currentState
  started : w'.calledStart = w.calledStart

theorem Frame.refl (w : World υ) : Frame w w := ⟨.refl w, rfl, rfl⟩

theorem Frame.trans {w w' w'' : World υ} (h : Frame w w') (h' : Frame w' w'') : Frame w w'' :=
  ⟨h.actions.trans h'.actions, h'.current.trans h.current, h'.started.trans h.started⟩

theorem OnlyUser.frame {w w' : World υ} (h : OnlyUser w w') : Frame w w' := by
  unfold OnlyUser at h
  rw [h]
  exact ⟨.refl w, rfl, rfl⟩

theorem openStates_entered (l : List Event) (π : Addr) (s : Nat) :
    openStates (l ++ [.entered π s]) = openStates l ++ [(π, s)] := by
  rw [openStates, List.foldl_append]
  rfl

theorem openStates_exited (l : List Event) (π : Addr) (s : Nat) :
    openStates (l ++ [.exited π s]) = (openStates l).erase (π, s) := by
  rw [openStates, List.foldl_append]
  rfl

theorem sameActions_set {w : World υ} {π : Addr} {s : Nat} {l : List TimedAction}
    (h : List.Forall₂ SameAction (w.cyclicActions π s) l) :
    SameActions w (w.setCyclicActions π s l) := by
  intro ρ r
  have := setCyclicActions_eq w π s l (ρ, r)
  simp only at this
  rw [this]
  split
  next he =>
    obtain ⟨rfl, rfl⟩ := Prod.mk.inj he
    exact h
  next => exact SameActions.refl w ρ r

variable {F : Finset Slot} {P Q : List (Addr × Nat)} {w : World υ} {h : Hooks υ}

/-- **Registering** a state's cyclic actions, when they can be, takes free slots. -/
theorem Held.register (h : Hooks υ) (hh : Held F P w) {π : Addr} {s : Nat} (hx : (π, s) ∉ P)
    (hable : Registrable (w.cyclicActions π s) w.sched) :
    let v := registerAllTimedActions h π s w
    Held F (P ++ [(π, s)]) v ∧ (∀ a ∈ v.cyclicActions π s, a.isOn = a.action.isSome) ∧
      (∀ y, y ≠ (π, s) → v.cyclicActions y.1 y.2 = w.cyclicActions y.1 y.2) ∧
      SameActions w v ∧ v = { w with cyclicActions := v.cyclicActions, sched := v.sched } := by
  obtain ⟨l', s', hreg, hr⟩ := registerAll_spec hable (hh.off (π, s) hx)
  unfold registerAllTimedActions
  rw [hreg]
  simp only [if_pos]
  have hset := setCyclicActions_eq w π s l'
  have hother : ∀ y, y ≠ (π, s) →
      (w.setCyclicActions π s l').cyclicActions y.1 y.2 = w.cyclicActions y.1 y.2 :=
    fun y hy => (hset y).trans (if_neg hy)
  have hne : ∀ y ∈ P, (w.setCyclicActions π s l').cyclicActions y.1 y.2 =
      w.cyclicActions y.1 y.2 := fun y hy => hother y fun e => hx (e ▸ hy)
  have hself : (w.setCyclicActions π s l').cyclicActions π s = l' := by
    simpa using hset (π, s)
  have hheld : heldSlots { w.setCyclicActions π s l' with sched := s' } (P ++ [(π, s)]) =
      heldSlots w P ++ slots l' := by
    have hp : heldSlots { w.setCyclicActions π s l' with sched := s' } P = heldSlots w P :=
      heldSlots_congr hne
    rw [← hp]
    simp only [heldSlots, List.flatMap_append, List.flatMap_singleton, hself]
  have hfresh : ∀ i ∈ slots l', i ∉ F ∧ i ∉ heldSlots w P := by
    intro i hi'
    have := hh.taken i
    rw [hr.fresh i hi'] at this
    simpa [not_or] using this
  refine ⟨⟨?_, ?_, ?_, ?_, ?_, ?_, hr.sound hh.sound⟩, ?_, hother, sameActions_set hr.same, rfl⟩
  · rw [List.nodup_append]
    exact ⟨hh.nodup, List.nodup_singleton _, fun a ha b hb hab =>
      hx (by rw [List.mem_singleton] at hb; exact hb ▸ hab ▸ ha)⟩
  · intro y hy
    rw [List.mem_append, List.mem_singleton, not_or] at hy
    show ∀ a ∈ (w.setCyclicActions π s l').cyclicActions y.1 y.2, _
    rw [hother y hy.2]
    exact hh.off y hy.1
  · intro y hy
    show ∀ a ∈ (w.setCyclicActions π s l').cyclicActions y.1 y.2, _
    rcases List.mem_append.mp hy with hy | hy
    · rw [hne y hy]
      intro a ha hon
      have hreg := hh.registered y hy a ha hon
      have hmem : a.slot ∈ heldSlots w P := List.mem_flatMap.mpr ⟨y, hy, mem_slots ha hon⟩
      have hni : a.slot ∉ slots l' := fun hm => (hfresh _ hm).2 hmem
      refine hreg.congr ?_ (hr.tasks _ hni)
      rw [hr.free, hreg.taken, Bool.false_and]
    · rw [List.mem_singleton.mp hy, hself]
      exact hr.registered
  · rw [hheld, List.nodup_append]
    exact ⟨hh.distinct, hr.nodup, fun i hi' j hj hij => (hfresh j hj).2 (hij ▸ hi')⟩
  · rw [hheld]
    intro i hiF hi'
    rcases List.mem_append.mp hi' with hi' | hi'
    · exact hh.foreign i hiF hi'
    · exact (hfresh i hi').1 hiF
  · intro i
    rw [hheld, List.mem_append, ← or_assoc, ← hh.taken i]
    show s'.isFree i = false ↔ _
    rw [hr.free i]
    cases w.sched.isFree i <;> simp
  · show ∀ a ∈ (w.setCyclicActions π s l').cyclicActions π s, _
    rw [hself]
    exact hr.on

/-- **Entering a state** adds it and its cyclic actions, when they fit. -/
theorem Entered.enter (hi : Inert h) (he : Entered F P w) {π : Addr} {s : Nat}
    (hx : (π, s) ∉ P) (fits : Fits F w (P ++ [(π, s)])) (d : StateDef) :
    Entered F (P ++ [(π, s)]) (enterState h d π s w) ∧ Frame w (enterState h d π s w) := by
  have hu := runActions_onlyUser hi d.onEnterActions (w.log (.entered π s))
  unfold enterState
  generalize runActions h d.onEnterActions (w.log (.entered π s)) = v at hu
  have hcyc : v.cyclicActions = w.cyclicActions := by rw [hu]; rfl
  have hsched : v.sched = w.sched := by rw [hu]; rfl
  have htrace : v.trace = w.trace ++ [.entered π s] := by rw [hu]; rfl
  -- the actions fit in the free slots
  have hable : Registrable (v.cyclicActions π s) v.sched := by
    rw [hcyc, hsched]
    refine ⟨fits.1 (π, s) (by simp), ?_⟩
    have hcount := he.freeCount_eq
    have hsum := fits.2
    rw [List.map_append, List.sum_append] at hsum
    simp only [List.map_cons, List.map_nil, List.sum_cons, List.sum_nil] at hsum
    show load w (π, s) ≤ _
    omega
  obtain ⟨hheld, hon, hother, hsame, hv⟩ := (he.toHeld.congr hcyc hsched).register h hx hable
  generalize registerAllTimedActions h π s v = v' at hheld hon hother hsame hv
  refine ⟨⟨hheld, ?_, ?_⟩, ⟨?_, ?_, ?_⟩⟩
  · rw [hv]
    show (openStates v.trace).Perm _
    rw [htrace, openStates_entered]
    exact he.opened.append_right _
  · intro y hy
    rcases List.mem_append.mp hy with hy | hy
    · rw [hother y fun e => hx (e ▸ hy), hcyc]
      exact he.on y hy
    · rw [List.mem_singleton.mp hy]
      exact hon
  · intro ρ r
    have hρ := hsame ρ r
    rwa [hcyc] at hρ
  · rw [hv]
    show v.currentState = _
    rw [hu]
    rfl
  · rw [hv]
    show v.calledStart = _
    rw [hu]
    rfl

/-- **Exiting a state** removes it and frees the slots of its cyclic actions. -/
theorem Entered.exit (hi : Inert h) {π : Addr} {s : Nat} (he : Entered F ((π, s) :: Q) w)
    (d : StateDef) :
    Entered F Q (exitState h d π s w) ∧ Frame w (exitState h d π s w) := by
  have hnx : (π, s) ∉ Q := (List.nodup_cons.mp he.nodup).1
  have hlog : Held F ((π, s) :: Q) (w.log (.exited π s)) := he.toHeld.congr rfl rfl
  obtain ⟨hheld, hsame⟩ := hlog.unregister
  have hother : ∀ y, y ≠ (π, s) →
      (unregisterAllTimedActions π s (w.log (.exited π s))).cyclicActions y.1 y.2 =
        w.cyclicActions y.1 y.2 := fun y hy =>
    (setCyclicActions_eq (w.log (.exited π s)) π s _ y).trans (if_neg hy)
  have hv : Entered F Q (unregisterAllTimedActions π s (w.log (.exited π s))) := by
    refine ⟨hheld, ?_, fun y hy => ?_⟩
    · show (openStates (w.trace ++ [.exited π s])).Perm Q
      rw [openStates_exited]
      have := he.opened.erase (π, s)
      rwa [List.erase_cons_head] at this
    · rw [hother y fun e => hnx (e ▸ hy)]
      exact he.on y (List.mem_cons_of_mem _ hy)
  have hframe : Frame w (unregisterAllTimedActions π s (w.log (.exited π s))) := by
    refine ⟨fun ρ r => ?_, rfl, rfl⟩
    by_cases hy : (ρ, r) = (π, s)
    · obtain ⟨rfl, rfl⟩ := Prod.mk.inj hy
      exact hsame
    · rw [hother (ρ, r) hy]
      exact SameActions.refl w ρ r
  have hu := runActions_onlyUser hi d.onExitActions
    (unregisterAllTimedActions π s (w.log (.exited π s)))
  exact ⟨hv.onlyUser hu, hframe.trans hu.frame⟩

end StLib.StateMachine.Activity
