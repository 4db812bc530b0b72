import StLib.Base.Runs
import StLib.StateMachine.NestedStart

/-! # When no run finds a nested machine unstarted

A machine may be run by any program whose callbacks call no machine. That no such run
reaches the `PANIC` of a nested machine is the same as that the machine is `Covered`.
For the necessity the guards answer what they are told, so that a run can take a machine
on the active path wherever its transitions lead. -/
namespace StLib.StateMachine.NestedPanics

open StLib.Base.Runs
open StLib.StateMachine.Model StLib.StateMachine.Rules StLib.StateMachine.NestedStart

variable {υ : Type}

/-! ## Runs -/

/-- A call on the top machine, with the world that it finds. -/
abbrev Label (υ : Type) := World υ × MachineOp

/-- Between two calls the machines stay as they are. -/
def Step (h : Hooks υ) (m : Machine) (w : World υ) (l : Label υ) (w' : World υ) : Prop :=
  SameMachines w l.1 ∧ w' = l.2.run h m l.1

/-- The calls after the start. -/
def NotStart (l : Label υ) : Prop := l.2 ≠ .start

/-- The worlds that calls on the machine lead to from its start. -/
def Leads (h : Hooks υ) (m : Machine) (w₀ w : World υ) : Prop :=
  ∃ ls, Run (Step h m) (fun _ => NotStart) (m.start h [] w₀) ls w

/-- Started with its machines in the states `cur`, the machine never finds one of them
unstarted. -/
def NeverPanics (m : Machine) (cur : Addr → Nat) : Prop :=
  ∀ (υ : Type) (h : Hooks υ), Outside h → ∀ w₀ : World υ, w₀.currentState = cur →
    (∀ ρ, w₀.calledStart ρ = false) → ∀ w v, Leads h m w₀ w → SameMachines w v →
      ¬ checkPanics h m [] v

theorem Leads.step {h : Hooks υ} {m : Machine} {w₀ w v : World υ} (hl : Leads h m w₀ w)
    (hv : SameMachines w v) (op : MachineOp) (hop : op ≠ .start) : Leads h m w₀ (op.run h m v) := by
  obtain ⟨ls, r⟩ := hl
  exact ⟨ls ++ [(v, op)], .snoc r hop ⟨hv, rfl⟩⟩

theorem start_mark {h : Hooks υ} (ho : Outside h) {m : Machine} {w₀ : World υ} {cur : Addr → Nat}
    (hcur : w₀.currentState = cur) (hnone : ∀ ρ, w₀.calledStart ρ = false) (ρ : Addr) :
    (m.start h [] w₀).calledStart ρ = true ↔ ρ ∈ marks cur m [] := by
  rw [(start_marks ho m [] w₀).2, hcur]
  exact or_iff_right (by rw [hnone]; nofun)

/-- **A covered machine never panics.** -/
theorem covered_neverPanics {m : Machine} {cur : Addr → Nat}
    (hc : Covered cur m [] fun _ => True) : NeverPanics m cur := by
  intro υ h ho w₀ hcur hnone w v ⟨ls, r⟩ hv
  have hinv : Wanders cur m w ∧ ∀ ρ ∈ marks cur m [], w.calledStart ρ = true := by
    refine r.invariant (P := fun w => Wanders cur m w ∧ ∀ ρ ∈ marks cur m [], w.calledStart ρ = true)
      ⟨fun n ρ _ => ?_, fun ρ hρ => (start_mark ho hcur hnone ρ).mpr hρ⟩ ?_
    · rw [(start_marks ho m [] w₀).1, hcur]
      exact .refl
    · rintro t ⟨u, op⟩ t' ⟨hw, hmarks⟩ hop ⟨hu, rfl⟩
      have hwu := hw.same hu
      have hmarksu : ∀ ρ ∈ marks cur m [], u.calledStart ρ = true := fun ρ hρ => by
        rw [hu.started]
        exact hmarks ρ hρ
      cases op with
      | start => exact absurd rfl hop
      | checkTransitions =>
        refine ⟨checkTransitions_wanders ho m [] (.inl ⟨rfl, rfl⟩) hwu, fun ρ hρ => ?_⟩
        rw [show (MachineOp.run h m .checkTransitions u).calledStart = u.calledStart from
          checkTransitions_started ho m [] u]
        exact hmarksu ρ hρ
      | forceChangeState s =>
        have hmoved := performStateChange_same ho m [] s u
        refine ⟨hwu.moved hmoved fun n hn => hn.irrefl.elim, fun ρ hρ => ?_⟩
        rw [show (MachineOp.run h m (.forceChangeState s) u).calledStart = u.calledStart from
          hmoved.started]
        exact hmarksu ρ hρ
  refine covered_quiet ho hc (.inl ⟨rfl, rfl⟩) (hinv.1.same hv) (fun ρ hρ => ?_) trivial
    fun _ _ _ _ => trivial
  rw [hv.started]
  exact hinv.2 ρ hρ

/-! ## Guards that answer what they are told -/

/-- Callbacks that do nothing, and guards that give the answers in the list and then
false. -/
def oracle : Hooks (List Bool) where
  action _ w := w
  predicate _ w := (w.user.headD false, { w with user := w.user.tail })
  panic _ w := w
  addStateOrders _ w := w
  removeStateOrders _ w := w

theorem oracle_outside : Outside oracle :=
  ⟨fun _ _ => .refl _, fun _ _ => ⟨rfl, rfl⟩, fun _ _ => .refl _, fun _ _ => .refl _,
    fun _ _ => .refl _⟩

/-- The world with the answers `bs`. -/
def told (w : World (List Bool)) (bs : List Bool) : World (List Bool) := { w with user := bs }

theorem told_same (w : World (List Bool)) (bs : List Bool) : SameMachines w (told w bs) := ⟨rfl, rfl⟩

/-- Told false by every guard, a machine takes no transition. -/
theorem firstTrue_refused (bs : List Bool) (w : World (List Bool)) : ∀ l : List Transition,
    firstTrue oracle l (told w (List.replicate l.length false ++ bs)) = (none, told w bs)
  | [] => rfl
  | t :: rest => by
    rw [firstTrue]
    exact firstTrue_refused bs w rest

theorem firstTrue_silent (w : World (List Bool)) : ∀ l : List Transition,
    firstTrue oracle l (told w []) = (none, told w [])
  | [] => rfl
  | t :: rest => by
    rw [firstTrue]
    exact firstTrue_silent w rest

/-- Told true by the guard of a transition, and false by those before it, a machine
takes it. -/
theorem firstTrue_chosen {t : Transition} {l : List Transition} (ht : t ∈ l) (w : World (List Bool)) :
    ∃ bs, firstTrue oracle l (told w bs) = (some t.target, told w []) := by
  obtain ⟨before, after, rfl⟩ := List.append_of_mem ht
  refine ⟨List.replicate before.length false ++ [true], ?_⟩
  induction before with
  | nil => rfl
  | cons s before ih =>
    rw [List.cons_append, firstTrue]
    exact ih (List.mem_append_right _ List.mem_cons_self)

theorem takeTransition_refused (m : Machine) (π : Addr) (w : World (List Bool)) (bs : List Bool) :
    ∃ cs, m.takeTransition oracle π (told w cs) = told w bs := by
  have hfirst := firstTrue_refused bs w (m.slice (w.currentState π))
  refine ⟨List.replicate (m.slice (w.currentState π)).length false ++ bs, ?_⟩
  have hcurrent (cs : List Bool) : (told w cs).currentState π = w.currentState π := rfl
  rw [Machine.takeTransition, hcurrent, hfirst]

theorem takeTransition_silent (m : Machine) (π : Addr) (w : World (List Bool)) :
    m.takeTransition oracle π (told w []) = told w [] := by
  unfold Machine.takeTransition
  rw [firstTrue_silent]

theorem takeTransition_chosen {m : Machine} {π : Addr} {w : World (List Bool)} {s : Nat}
    (hs : Follows m (w.currentState π) s) : ∃ bs,
      m.takeTransition oracle π (told w bs) = m.performStateChange oracle π s (told w []) := by
  obtain ⟨t, ht, rfl⟩ := hs
  obtain ⟨bs, hfirst⟩ := firstTrue_chosen ht w
  refine ⟨bs, ?_⟩
  have hcurrent : (told w bs).currentState π = w.currentState π := rfl
  rw [Machine.takeTransition, hcurrent, hfirst]

/-- A change of state asks no guard. -/
theorem performStateChange_silent (m : Machine) (π : Addr) (s : Nat) {w : World (List Bool)}
    (hw : w.user = []) : (m.performStateChange oracle π s w).user = [] := by
  have hk : KeepsStates oracle {} (fun _ => True) fun _ v => v.user = [] :=
    { weaken := fun _ _ hv => hv
      action := fun _ _ _ _ _ hv => hv
      entered := fun _ _ _ hv => hv
      register := fun _ _ _ _ hv => registerAllTimedActions_rule
        (P := fun v : World (List Bool) => v.user = []) (fun _ _ => hv) fun _ _ hv => hv
      unregister := fun _ _ _ hv => hv
      addStateOrders := fun _ _ hv => hv
      removeStateOrders := fun _ _ hv => hv }
  exact performStateChange_plain hk (fun _ _ _ hv => hv) m π s hw

/-- Told nothing, the machines stay as they are. -/
theorem checkTransitions_silent (m : Machine) (π : Addr) (w : World (List Bool)) :
    m.checkTransitions oracle π (told w []) = told w [] := by
  cases hs : w.calledStart π with
  | false =>
    obtain ⟨d, nested⟩ := m
    rw [Machine.checkTransitions, if_pos (by rw [show (told w []).calledStart π = _ from hs]; rfl)]
    rfl
  | true =>
    have htold : (told w []).calledStart π = true := hs
    rw [checkTransitions_eq _ _ _ _ htold, takeTransition_silent]
    split
    next j n hb =>
      have := bound_sizeOf hb
      exact checkTransitions_silent n (j :: π) w
    next => rfl
termination_by sizeOf m

/-! ## Driving the active path -/

/-- `k`, at `ρ`, is active below `m`, at `π`, and those on the way are started. -/
inductive Active (w : World υ) : Machine → Addr → Machine → Addr → Prop
  | here (m : Machine) (π : Addr) : Active w m π m π
  | down {m n k : Machine} {π ρ : Addr} {j : Nat} (started : w.calledStart π = true)
      (hb : m.bound (w.currentState π) = some (j, n)) (below : Active w n (j :: π) k ρ) :
      Active w m π k ρ

theorem Active.suffix {w : World υ} {m k : Machine} {π ρ : Addr} (h : Active w m π k ρ) :
    π <:+ ρ := by
  induction h with
  | here => exact List.suffix_refl _
  | down _ _ _ ih => exact (List.suffix_cons _ _).trans ih

theorem Active.snoc {w : World υ} {m n k : Machine} {π ρ : Addr} {j : Nat} (h : Active w m π k ρ)
    (started : w.calledStart ρ = true) (hb : k.bound (w.currentState ρ) = some (j, n)) :
    Active w m π n (j :: ρ) := by
  induction h with
  | here => exact .down started hb (.here _ _)
  | down hs hb' _ ih => exact .down hs hb' (ih started hb)

/-- What is active depends on the machines on the way. -/
theorem Active.congr {w v : World υ} {m k : Machine} {π ρ : Addr} (h : Active w m π k ρ)
    (hs : v.calledStart = w.calledStart)
    (hc : ∀ σ, σ.length < ρ.length → v.currentState σ = w.currentState σ) : Active v m π k ρ := by
  induction h with
  | here => exact .here _ _
  | down started hb below ih =>
    have hlen := below.suffix.length_le
    exact .down (by rw [hs]; exact started) (by rw [hc _ hlen]; exact hb) (ih hc)

/-- A call on the top machine can do what a call on an active one does. -/
theorem Active.drive {w : World (List Bool)} {m k : Machine} {π ρ : Addr} (h : Active w m π k ρ)
    (bs : List Bool) : ∃ cs,
      m.checkTransitions oracle π (told w cs) = k.checkTransitions oracle ρ (told w bs) ∧
      (checkPanics oracle m π (told w cs) ↔ checkPanics oracle k ρ (told w bs)) := by
  induction h with
  | here => exact ⟨bs, rfl, Iff.rfl⟩
  | @down m n k π ρ j started hb _ ih =>
    obtain ⟨cs, hcheck, hpanics⟩ := ih
    obtain ⟨ds, htake⟩ := takeTransition_refused m π w cs
    have htold : (told w ds).calledStart π = true := started
    refine ⟨ds, ?_, ?_⟩
    · rw [checkTransitions_eq _ _ _ _ htold, htake,
        show (told w cs).currentState π = w.currentState π from rfl, hb]
      exact hcheck
    · rw [checkPanics_iff _ _ _ htold, htake,
        show (told w cs).currentState π = w.currentState π from rfl, hb]
      refine Iff.trans ⟨?_, fun hp => ⟨j, n, rfl, hp⟩⟩ hpanics
      rintro ⟨_, _, he, hp⟩
      cases he
      exact hp

section driving
variable {m k : Machine} {ρ : Addr} {w₀ w : World (List Bool)}

/-- An active machine can take any of its transitions. -/
theorem Active.follow (h : Active w m [] k ρ) (hl : Leads oracle m w₀ w)
    (started : w.calledStart ρ = true) {s : Nat} (hs : Follows k (w.currentState ρ) s) :
    ∃ w', Leads oracle m w₀ w' ∧ MovedTo ρ s w w' := by
  obtain ⟨bs, htake⟩ := takeTransition_chosen hs
  obtain ⟨cs, hcheck, -⟩ := h.drive bs
  have hstarted : (told w bs).calledStart ρ = true := started
  have hsilent := performStateChange_silent k ρ s (show (told w []).user = [] from rfl)
  have hmoved := performStateChange_same oracle_outside k ρ s (told w [])
  generalize hv : k.performStateChange oracle ρ s (told w []) = v at hsilent hmoved
  have hend : k.checkTransitions oracle ρ (told w bs) = v := by
    rw [checkTransitions_eq _ _ _ _ hstarted, htake, hv]
    have htold : told v [] = v := by rw [told, ← hsilent]
    split
    next j n hb =>
      rw [← htold]
      exact checkTransitions_silent n _ v
    next => rfl
  refine ⟨v, ?_, hmoved.current, hmoved.started⟩
  rw [← hend, ← hcheck]
  exact hl.step (told_same w cs) .checkTransitions nofun

/-- An active machine can get to any state that its transitions lead to. -/
theorem Active.reach (h : Active w m [] k ρ) (hl : Leads oracle m w₀ w)
    (started : w.calledStart ρ = true) {s : Nat} (hs : Reaches k (w.currentState ρ) s) :
    ∃ w', Leads oracle m w₀ w' ∧ MovedTo ρ s w w' := by
  induction hs with
  | refl => exact ⟨w, hl, (SameMachines.refl w).movedTo⟩
  | @tail s s' _ hfollow ih =>
    obtain ⟨v, hlv, hv⟩ := ih
    have hactive : Active v m [] k ρ := h.congr hv.started fun σ hσ =>
      hv.other fun he => Nat.lt_irrefl _ (he ▸ hσ)
    have hstarted : v.calledStart ρ = true := by
      rw [hv.started]
      exact started
    obtain ⟨u, hlu, hu⟩ := hactive.follow hlv hstarted (s := s') (by rw [hv.self]; exact hfollow)
    exact ⟨u, hlu, hv.trans hu⟩

/-- Where no run panics, a machine that becomes active has been marked. -/
theorem Active.bound_started
    (hquiet : ∀ w v, Leads oracle m w₀ w → SameMachines w v → ¬ checkPanics oracle m [] v)
    (h : Active w m [] k ρ) (hl : Leads oracle m w₀ w) (started : w.calledStart ρ = true) {j : Nat}
    {n : Machine} (hb : k.bound (w.currentState ρ) = some (j, n)) :
    w.calledStart (j :: ρ) = true := by
  obtain ⟨cs, -, hpanics⟩ := h.drive []
  have hstarted : (told w []).calledStart ρ = true := started
  have hk := hquiet w (told w cs) hl (told_same w cs)
  rw [hpanics, checkPanics_iff _ _ _ hstarted, takeTransition_silent] at hk
  have hn : ¬ checkPanics oracle n (j :: ρ) (told w []) := fun hp => hk ⟨j, n, hb, hp⟩
  have htold : (told w []).calledStart (j :: ρ) = true := started_of_quiet hn
  exact htold

end driving

/-! ## Necessity -/

/-- `k`, at `ρ`, has been started, its marks are those of `m` below `ρ`, and runs of `m`
take it to the states of `R` while the machines below it are as they were. -/
structure Explored (cur : Addr → Nat) (m : Machine) (w₀ : World (List Bool)) (k : Machine) (ρ : Addr)
    (R : Nat → Prop) : Prop where
  inside : ∀ σ ∈ marks cur k ρ, σ ∈ marks cur m []
  only : ∀ σ ∈ marks cur m [], ρ <:+ σ → σ ∈ marks cur k ρ
  reach : ∀ s, R s → ∃ w, Leads oracle m w₀ w ∧ Active w m [] k ρ ∧ w.currentState ρ = s ∧
    (∀ σ, ρ <:+ σ → σ ≠ ρ → w.currentState σ = cur σ) ∧
    ∀ σ, w.calledStart σ = true ↔ σ ∈ marks cur m []

section necessity
variable {m : Machine} {cur : Addr → Nat} {w₀ : World (List Bool)}

/-- The marks of a machine, one level down. -/
theorem mem_marks_cons {k : Machine} {ρ : Addr} {j : Nat} (h : j :: ρ ∈ marks cur k ρ) :
    j = 0 ∨ ∃ n, k.bound (cur ρ) = some (j, n) := by
  rw [marks_eq] at h
  rcases List.mem_cons.mp h with h | h
  · exact absurd (congrArg List.length h) (Nat.succ_ne_self _)
  rcases List.mem_append.mp h with h | h
  · unfold boundMarks at h
    split at h
    next i n hb =>
      obtain rfl := suffix_cons_inj (marks_suffix n h) (List.suffix_refl _)
      exact .inr ⟨n, hb⟩
    next => exact absurd h List.not_mem_nil
  · cases hn : k.nested with
    | nil =>
      rw [hn] at h
      exact absurd h List.not_mem_nil
    | cons =>
      rw [hn] at h
      exact .inl (List.cons.inj (List.mem_singleton.mp h)).1

/-- The marks of a machine, two levels down. -/
theorem mem_marks_cons_cons {k : Machine} {ρ : Addr} {i j : Nat}
    (h : i :: j :: ρ ∈ marks cur k ρ) : ∃ n, k.bound (cur ρ) = some (j, n) ∧
      i :: j :: ρ ∈ marks cur n (j :: ρ) := by
  rw [marks_eq] at h
  rcases List.mem_cons.mp h with h | h
  · have hlen := congrArg List.length h
    simp only [List.length_cons] at hlen
    omega
  rcases List.mem_append.mp h with h | h
  · unfold boundMarks at h
    split at h
    next j' n hb =>
      obtain rfl := suffix_cons_inj (marks_suffix n h) (List.suffix_cons i _)
      exact ⟨n, hb, h⟩
    next => exact absurd h List.not_mem_nil
  · cases hn : k.nested with
    | nil =>
      rw [hn] at h
      exact absurd h List.not_mem_nil
    | cons =>
      rw [hn] at h
      have hlen := congrArg List.length (List.mem_singleton.mp h)
      simp only [List.length_cons] at hlen
      omega

/-- The machine bound to the initial state of an explored one is explored. -/
theorem Explored.bound {k n : Machine} {ρ : Addr} {R : Nat → Prop} {j : Nat}
    (h : Explored cur m w₀ k ρ R) (hinit : R (cur ρ)) (hb : k.bound (cur ρ) = some (j, n)) :
    Explored cur m w₀ n (j :: ρ) (Reaches n (cur (j :: ρ))) where
  inside σ hσ := h.inside σ (mem_marks_bound hb hσ)
  only σ hσ hsuffix := by
    have hk := h.only σ hσ ((List.suffix_cons j ρ).trans hsuffix)
    rw [marks_eq] at hk
    rcases List.mem_cons.mp hk with rfl | hk
    · exact absurd hsuffix.length_le (Nat.not_succ_le_self _)
    rcases List.mem_append.mp hk with hk | hk
    · unfold boundMarks at hk
      rw [hb] at hk
      exact hk
    · cases hn : k.nested with
      | nil =>
        rw [hn] at hk
        exact absurd hk List.not_mem_nil
      | cons =>
        rw [hn] at hk
        obtain rfl := List.mem_singleton.mp hk
        rw [← hsuffix.eq_of_length rfl]
        exact mem_marks_self cur n _
  reach s hs := by
    obtain ⟨w, hl, ha, hcur, hbelow, hmarks⟩ := h.reach (cur ρ) hinit
    have hstarted : w.calledStart ρ = true := (hmarks ρ).mpr (h.inside ρ (mem_marks_self cur k ρ))
    have hactive : Active w m [] n (j :: ρ) := ha.snoc hstarted (by rw [hcur]; exact hb)
    have hnstarted : w.calledStart (j :: ρ) = true :=
      (hmarks _).mpr (h.inside _ (mem_marks_bound hb (mem_marks_self cur n _)))
    have hcurn : w.currentState (j :: ρ) = cur (j :: ρ) :=
      hbelow _ (List.suffix_cons j ρ) (List.cons_ne_self j ρ)
    obtain ⟨v, hlv, hv⟩ := hactive.reach hl hnstarted (by rw [hcurn]; exact hs)
    refine ⟨v, hlv, ?_, hv.self, fun σ hσ hne => ?_, fun σ => ?_⟩
    · exact hactive.congr hv.started fun σ hσ => hv.other fun he => Nat.lt_irrefl _ (he ▸ hσ)
    · rw [hv.other hne]
      refine hbelow σ ((List.suffix_cons j ρ).trans hσ) ?_
      rintro rfl
      exact absurd hσ.length_le (Nat.not_succ_le_self _)
    · rw [hv.started]
      exact hmarks σ

/-- **Necessity**: where no run panics, an explored machine is covered. -/
theorem Explored.covered
    (hquiet : ∀ w v, Leads oracle m w₀ w → SameMachines w v → ¬ checkPanics oracle m [] v)
    {k : Machine} {ρ : Addr} {R : Nat → Prop} (h : Explored cur m w₀ k ρ R) (hinit : R (cur ρ)) :
    Covered cur k ρ R := by
  refine .mk (fun s hs hne j n hb => ?_) fun j n hb => ?_
  · obtain ⟨w, hl, ha, hcur, hbelow, hmarks⟩ := h.reach s hs
    have hstarted : w.calledStart ρ = true := (hmarks ρ).mpr (h.inside ρ (mem_marks_self cur k ρ))
    have hbw : k.bound (w.currentState ρ) = some (j, n) := by rw [hcur]; exact hb
    have hnstarted := ha.bound_started hquiet hl hstarted hbw
    have hnot : ∀ n', k.bound (cur ρ) ≠ some (j, n') := fun n' hb' =>
      hne (boundFrom_state hb hb').1
    have hmem := h.only _ ((hmarks _).mp hnstarted) (List.suffix_cons j ρ)
    refine ⟨(mem_marks_cons hmem).resolve_right fun ⟨n', hb'⟩ => hnot n' hb', fun s' hs' => ?_⟩
    by_contra hbound
    obtain ⟨⟨i, k'⟩, hb'⟩ := Option.ne_none_iff_exists'.mp hbound
    have hactive : Active w m [] n (j :: ρ) := ha.snoc hstarted hbw
    have hcurn : w.currentState (j :: ρ) = cur (j :: ρ) :=
      hbelow _ (List.suffix_cons j ρ) (List.cons_ne_self j ρ)
    obtain ⟨v, hlv, hv⟩ := hactive.reach hl hnstarted (by rw [hcurn]; exact hs')
    have hactive' : Active v m [] n (j :: ρ) := hactive.congr hv.started fun σ hσ =>
      hv.other fun he => Nat.lt_irrefl _ (he ▸ hσ)
    have hvstarted : v.calledStart (j :: ρ) = true := by rw [hv.started]; exact hnstarted
    have hdeep := hactive'.bound_started hquiet hlv hvstarted (by rw [hv.self]; exact hb')
    rw [hv.started] at hdeep
    have hmem' := h.only _ ((hmarks _).mp hdeep)
      ((List.suffix_cons j ρ).trans (List.suffix_cons i (j :: ρ)))
    obtain ⟨n', hb'', -⟩ := mem_marks_cons_cons hmem'
    exact hnot n' hb''
  · have := bound_sizeOf hb
    exact (h.bound hinit hb).covered hquiet .refl
termination_by sizeOf k

end necessity

/-! ## Main result -/

theorem explored_top {m : Machine} {cur : Addr → Nat} {w₀ : World (List Bool)}
    (hcur : w₀.currentState = cur) (hnone : ∀ ρ, w₀.calledStart ρ = false) :
    Explored cur m w₀ m [] fun _ => True where
  inside _ h := h
  only _ h _ := h
  reach s _ := by
    have hl : Leads oracle m w₀ (m.start oracle [] w₀) := ⟨[], .nil _⟩
    have hmoved := performStateChange_same oracle_outside m [] s (m.start oracle [] w₀)
    refine ⟨_, hl.step (.refl _) (.forceChangeState s) nofun, .here m [], MovedTo.self hmoved,
      fun σ _ hne => ?_, fun σ => ?_⟩
    · refine (MovedTo.other hmoved hne).trans ?_
      rw [(start_marks oracle_outside m [] w₀).1, hcur]
    · rw [← start_mark oracle_outside hcur hnone σ]
      exact Eq.congr_left (congrFun hmoved.started σ)

theorem neverPanics_covered {m : Machine} {cur : Addr → Nat} (h : NeverPanics m cur) :
    Covered cur m [] fun _ => True := by
  let w₀ : World (List Bool) :=
    { currentState := cur, cyclicActions := fun _ _ => [], sched := Scheduler.Model.initial, user := [] }
  have hexplored : Explored cur m w₀ m [] fun _ => True := explored_top rfl fun _ => rfl
  exact hexplored.covered (h _ oracle oracle_outside w₀ rfl fun _ => rfl) trivial

/-- **Nested start**: no run finds a nested machine unstarted exactly when the machine is
covered. -/
theorem never_panics_iff_covered (m : Machine) (cur : Addr → Nat) :
    NeverPanics m cur ↔ Covered cur m [] fun _ => True :=
  ⟨neverPanics_covered, covered_neverPanics⟩

/-- A machine with machines bound to its states 0 and 1. -/
def nestedTwice : Machine :=
  .mk { states := [{}, {}] } (.cons 0 (.mk { states := [{}] } .nil)
    (.cons 1 (.mk { states := [{}] } .nil) .nil))

/-- Started in state 0 and forced to state 1, it finds its second machine unstarted. -/
theorem nested_not_started : ¬ ∀ m cur, NeverPanics m cur := by
  intro h
  cases neverPanics_covered (h nestedTwice fun _ => 0) with
  | mk other _ => exact absurd (other 1 trivial Nat.one_ne_zero 1 _ rfl).1 Nat.one_ne_zero

end StLib.StateMachine.NestedPanics
