import StLib.Exti.Lines
import StLib.Gpio.Configuration

/-! # What a device sees of the interrupts

The devices of an accepted board share the pending register, the table, the handlers and
their loops. Each of them nevertheless lives as if it were alone with its line: its action
runs for its own edges, and every edge is answered once the interrupt is taken. -/
namespace StLib.Exti.Service

open StLib.Base.RegisterBits StLib.Base.TableWrites StLib.Base.Runs StLib.Base.Views
open StLib.Gpio
open StLib.Gpio.Pins (Port Route Hardware)
open StLib.Gpio.Configuration (foldl_apply)
open StLib.Exti.Lines

variable {α : Type}

/-! ## A device alone -/

/-- A device with a line of its own, and how often its action ran. -/
structure Line where
  pending : Bool := false
  isOn : Bool := false
  ran : Nat := 0
deriving DecidableEq

inductive LineEvent
  | edge
  | serve
  | turn (on : Bool)
deriving DecidableEq

/-- A line that is served runs the action where there is one and the device is on. -/
def Line.next (action : Option α) (l : Line) : LineEvent → Line
  | .edge => { l with pending := true }
  | .serve =>
    if l.pending then
      { l with pending := false, ran := l.ran + if l.isOn && action.isSome then 1 else 0 }
    else l
  | .turn on => { l with isOn := on }

/-! ## A device on the board -/

/-- The pin `p` of an entry, and its line `k`. -/
structure Attached (pins : List Pins.Entry) (e : Entry α) (p : Pins.Entry) (k : Nat) : Prop where
  place : pins[e.pinIdx]? = some p
  mode : p.mode.isExti = true
  lt : k < 16
  pin : p.pin = bit k
  mask : e.pinMask = p.pin.setWidth 16

/-- What the devices inscribed: the pin of each one, and no other pin in an interrupt mode. -/
structure Inscribed (pins : List Pins.Entry) (entries : List (Entry α)) : Prop where
  attached : ∀ e ∈ entries, ∃ p k, Attached pins e p k
  owned : ∀ p ∈ pins, p.mode.isExti = true → ∃ e ∈ entries, pins[e.pinIdx]? = some p

theorem setWidth_bit {k : Nat} (hk : k < 16) : (bit k : BitVec 32).setWidth 16 = bit k := by
  revert k
  decide

theorem Attached.line {pins : List Pins.Entry} {e : Entry α} {p : Pins.Entry} {k : Nat} (h : Attached pins e p k) :
    e.line = k := by
  rw [Entry.line, h.mask, h.pin, setWidth_bit h.lt, getPinIndex_bit h.lt]

theorem Attached.append {pins : List Pins.Entry} {e : Entry α} {p : Pins.Entry} {k : Nat}
    (h : Attached pins e p k) (others : List Pins.Entry) : Attached (pins ++ others) e p k :=
  { h with
    place := by
      rw [List.getElem?_append_left (List.getElem?_eq_some_iff.mp h.place).1]
      exact h.place }

theorem inscribed_nil : Inscribed [] ([] : List (Entry α)) where
  attached e he := by simp at he
  owned p hp _ := by simp at hp

/-- Another pin, in a mode of its own, changes nothing. -/
theorem Inscribed.gpio {pins : List Pins.Entry} {entries : List (Entry α)} (h : Inscribed pins entries)
    {p : Pins.Entry} (hp : p.mode.isExti = false) : Inscribed (pins ++ [p]) entries where
  attached e he := by
    obtain ⟨q, k, hq⟩ := h.attached e he
    exact ⟨q, k, hq.append [p]⟩
  owned q hq hmode := by
    rcases List.mem_append.mp hq with hq | hq
    · obtain ⟨e, he, hplace⟩ := h.owned q hq hmode
      refine ⟨e, he, ?_⟩
      rw [List.getElem?_append_left (List.getElem?_eq_some_iff.mp hplace).1, hplace]
    · rw [List.mem_singleton.mp hq, hp] at hmode
      cases hmode

/-- A device inscribes itself with its pin. -/
theorem Inscribed.device {pins : List Pins.Entry} {entries : List (Entry α)} (h : Inscribed pins entries)
    (d : Device α) : Inscribed (d.inscribe pins entries).1 (d.inscribe pins entries).2 where
  attached e he := by
    rcases List.mem_append.mp he with he | he
    · obtain ⟨p, k, hp⟩ := h.attached e he
      exact ⟨p, k, hp.append [d.gpio]⟩
    · rw [List.mem_singleton.mp he]
      obtain ⟨k, hk, hpin⟩ := d.pin.single
      refine ⟨d.gpio, k, ?_, ?_, hk, hpin, rfl⟩
      · simp [Device.inscribe]
      · simp only [Device.gpio]
        cases d.trigger <;> rfl
  owned p hp hmode := by
    rcases List.mem_append.mp hp with hp | hp
    · obtain ⟨e, he, hplace⟩ := h.owned p hp hmode
      refine ⟨e, List.mem_append_left _ he, ?_⟩
      rw [Device.inscribe, List.getElem?_append_left (List.getElem?_eq_some_iff.mp hplace).1, hplace]
    · rw [List.mem_singleton.mp hp]
      exact ⟨_, List.mem_append_right _ (List.mem_singleton_self _), by simp [Device.inscribe]⟩

/-- The board after both domains are initialised. -/
def start (pins : List Pins.Entry) (entries : List (Entry α)) (h : Hardware) : State α :=
  init (entries.map Entry.config) (Pins.init (pins.map Pins.Entry.config) h).1

/-- The events of the instance `i` on the pin `p` with the line `k`. -/
def own (i : Nat) (p : Pins.Entry) (k : Nat) : Event → Option LineEvent
  | .edge port line rising =>
    if line = k ∧ port = p.port ∧ (if rising then p.mode.rising else p.mode.falling) = true then some .edge
    else none
  | .enter _ => none
  | .visit pin => if pin = bit k then some .serve else none
  | .turn device on => if device = i then some (.turn on) else none

/-- What the board holds of it. -/
def see (i k : Nat) (s : State α) : Line where
  pending := s.pending.getLsbD k
  isOn := s.instances[i]?.any Instance.isOn
  ran := s.ran.count i

/-! ## What a step keeps -/

/-- The wiring of the board. -/
structure Wired (entries : List (Entry α)) (route : Nat → Option Route) (s : State α) : Prop where
  actions : s.instances.map Instance.action = entries.map Entry.action
  table : ∀ k i, s.gInstances k = some i → ∃ e, entries[i]? = some e ∧ e.line = k
  listed : ∀ i e, entries[i]? = some e → s.gInstances e.line = some i
  enabled : ∀ e ∈ entries, s.enabled (irqOf e.line) = true
  route : s.route = route
  handler : ∀ pin ∈ s.handler, ∃ k < 16, pin = bit k

/-- Whom the callback of a line that is pending reaches. -/
def called (s : State α) (k : Nat) : Option Nat :=
  if s.pending.getLsbD k then
    (s.gInstances k).filter fun i => s.instances[i]?.any fun exti => exti.isOn && exti.action.isSome
  else none

theorem callback_eq (s : State α) {k : Nat} (hk : k < 16) :
    s.callback (bit k) = { s with ran := s.ran ++ ((s.gInstances k).filter fun i =>
      s.instances[i]?.any fun exti => exti.isOn && exti.action.isSome).toList } := by
  rw [State.callback, getPinIndex_bit hk, if_neg (Nat.not_le.mpr hk)]
  cases s.gInstances k with
  | none => simp
  | some i =>
    cases hi : s.instances[i]? with
    | none => simp [hi, Option.filter]
    | some exti =>
      by_cases hon : (exti.isOn && exti.action.isSome) = true
      · simp [hi, hon, Option.filter]
      · simp [hi, hon, Option.filter]

/-- What a handler does with one of its pins. -/
theorem irqHandler_eq (s : State α) {k : Nat} (hk : k < 16) :
    s.irqHandler (bit k) =
      { s with pending := clearBit s.pending (bit k), ran := s.ran ++ (called s k).toList } := by
  rw [State.irqHandler, called]
  by_cases hpending : s.pending &&& bit k = 0
  · have hbit := (and_bit_eq_zero_iff hk s.pending).mp hpending
    have hsame : clearBit s.pending (bit k) = s.pending := by
      refine BitVec.eq_of_getLsbD_eq fun j _ => ?_
      rw [getLsbD_clearBit hk]
      by_cases hj : j = k
      · simp [hj, hbit]
      · simp [hj]
    simp [hpending, hbit, hsame]
  · have hbit : s.pending.getLsbD k = true := eq_true_of_ne_false ((and_bit_eq_zero_iff hk s.pending).not.mp hpending)
    rw [if_pos hpending, callback_eq _ hk, if_pos hbit]

variable {entries : List (Entry α)} {route : Nat → Option Route} {s t : State α}

/-- **The wiring** is kept by every step. -/
theorem Wired.step {a : Event} (h : Wired entries route s) (hstep : Lines.step s a = some t) :
    Wired entries route t := by
  cases a with
  | edge port line rising =>
    rw [Lines.step] at hstep
    split at hstep <;> cases hstep
    · exact { h with }
    · exact h
  | enter irq =>
    rw [Lines.step] at hstep
    split at hstep
    · cases hstep
      exact
        { h with
          handler := by
            intro pin hpin
            rw [masks_eq] at hpin
            obtain ⟨k, hk, rfl⟩ := List.mem_map.mp hpin
            exact ⟨k, lines_lt irq k hk, rfl⟩ }
    · cases hstep
  | visit pin =>
    rw [Lines.step] at hstep
    split at hstep
    next hhead =>
      cases hstep
      obtain ⟨k, hk, rfl⟩ := h.handler pin (List.mem_of_mem_head? hhead)
      rw [irqHandler_eq s hk]
      exact { h with handler := fun pin hpin => h.handler pin (List.mem_of_mem_tail hpin) }
    · cases hstep
  | turn device on =>
    rw [Lines.step] at hstep
    split at hstep
    · cases hstep
      refine { h with actions := ?_ }
      rw [← h.actions]
      refine List.ext_getElem? fun j => ?_
      simp only [List.getElem?_map, List.getElem?_modify]
      by_cases hj : device = j
      · cases s.instances[j]? <;> simp [hj]
      · simp [hj]
    · cases hstep

/-! ## What a device sees of a step -/

section Device

variable {pins : List Pins.Entry} {i k : Nat} {e : Entry α} {p : Pins.Entry}

/-- The callback of a line reaches the device that has it. -/
theorem called_own (h : Wired entries route s) (he : entries[i]? = some e) (hk : e.line = k) :
    called s k = if s.pending.getLsbD k && (s.instances[i]?.any Instance.isOn && e.action.isSome) then some i
      else none := by
  have hi : (s.instances[i]?).map Instance.action = some e.action := by
    rw [← List.getElem?_map, h.actions, List.getElem?_map, he, Option.map_some]
  rw [called, ← hk, h.listed i e he]
  cases hinstance : s.instances[i]? with
  | none => simp [hinstance] at hi
  | some exti =>
    rw [hinstance, Option.map_some, Option.some.injEq] at hi
    cases hpending : s.pending.getLsbD e.line with
    | false => simp
    | true =>
      rw [← hi]
      by_cases hon : (exti.isOn && exti.action.isSome) = true
      · simp [Option.filter, hinstance, hon]
      · simp [Option.filter, hinstance, hon]

/-- The callback of another line does not reach it. -/
theorem called_other (h : Wired entries route s) (he : entries[i]? = some e) {k' : Nat} (hne : e.line ≠ k') :
    i ∉ (called s k').toList := by
  intro hmem
  have hcalled := Option.mem_toList.mp hmem
  rw [called] at hcalled
  split at hcalled
  · obtain ⟨e', he', hline⟩ := h.table k' i (Option.filter_eq_some_iff.mp hcalled).1
    cases he.symm.trans he'
    exact hne hline
  · simp at hcalled

/-- **One step** is seen by a device as its own event, or not at all. -/
theorem see_step (h : Wired entries route s) (he : entries[i]? = some e) (hk : e.line = k) (hlt : k < 16)
    (hroute : route k = p.config.route) {a : Event} (hstep : Lines.step s a = some t) :
    see i k t = (own i p k a).elim (see i k s) ((see i k s).next e.action) := by
  cases a with
  | edge port line rising =>
    rw [Lines.step, h.route] at hstep
    by_cases hline : line = k
    · rw [hline, hroute] at hstep
      have haccepts : (p.config.route.any (Route.accepts · port rising)) = true ↔
          port = p.port ∧ (if rising then p.mode.rising else p.mode.falling) = true := by
        change (p.port == port && _) = true ↔ _
        rw [Bool.and_eq_true, beq_iff_eq, eq_comm]
        rfl
      by_cases hown : port = p.port ∧ (if rising then p.mode.rising else p.mode.falling) = true
      · rw [if_pos (haccepts.mpr hown)] at hstep
        cases hstep
        simp [own, hline, hown, see, Line.next, getLsbD_setBit hlt]
      · rw [if_neg (haccepts.not.mpr hown)] at hstep
        cases hstep
        rw [own, if_neg fun h => hown h.2]
        rfl
    · rw [own, if_neg fun hown => hline hown.1]
      split at hstep <;> cases hstep
      · simp only [see, Option.elim_none, Line.mk.injEq, and_true]
        rw [setBit, BitVec.getLsbD_or]
        by_cases hin : line < 16
        · simp [getLsbD_bit hin, Ne.symm hline]
        · simp [bit, Nat.lt_of_lt_of_le hlt (Nat.not_lt.mp hin)]
      · rfl
  | enter irq =>
    rw [Lines.step] at hstep
    split at hstep <;> cases hstep
    rfl
  | visit pin =>
    rw [Lines.step] at hstep
    split at hstep
    next hhead =>
      cases hstep
      obtain ⟨k', hk', rfl⟩ := h.handler pin (List.mem_of_mem_head? hhead)
      rw [irqHandler_eq s hk']
      by_cases hline : k' = k
      · rw [hline, own, if_pos rfl, Option.elim_some, Line.next, see, called_own h he hk]
        cases hpending : s.pending.getLsbD k with
        | false => simp [see, hpending, getLsbD_clearBit hlt]
        | true =>
          by_cases hon : (s.instances[i]?.any Instance.isOn && e.action.isSome) = true
          · simp [see, hpending, getLsbD_clearBit hlt, hon, List.count_append]
          · simp [see, hpending, getLsbD_clearBit hlt, hon]
      · have hbit : (bit k' : BitVec 16) ≠ bit k := fun heq => hline (bit_inj hk' hlt heq)
        have hother : i ∉ (called s k').toList := called_other h he fun heq => hline (heq.symm.trans hk)
        rw [own, if_neg hbit]
        simp [see, getLsbD_clearBit hk', Ne.symm hline, List.count_append, List.count_eq_zero_of_not_mem hother]
    · cases hstep
  | turn device on =>
    rw [Lines.step] at hstep
    split at hstep
    next hdevice =>
      cases hstep
      by_cases hi : device = i
      · rw [own, if_pos hi, Option.elim_some, Line.next, ← hi, see, see]
        simp [hdevice]
      · rw [own, if_neg hi]
        simp [see, hi]
    · cases hstep

/-- A device as a view of the board. -/
def deviceView (he : entries[i]? = some e) (hk : e.line = k) (hlt : k < 16) (hroute : route k = p.config.route) :
    View Lines.step (Wired entries route) Line LineEvent where
  see := see i k
  own := own i p k
  next := Line.next e.action
  keeps := Wired.step
  follows h hstep := see_step h he hk hlt hroute hstep

end Device

/-! ## The board after `init` -/

instance : Std.Symm fun e e' : Entry α => e.line ≠ e'.line := ⟨fun _ _ h => h.symm⟩

section Board

variable {pins : List Pins.Entry} {cfgs : List (Config α)} {h : Hardware}

/-- The entries of an accepted board are told apart by their lines. -/
theorem eq_of_line (hbuild : build entries = .ok cfgs) {e e' : Entry α} (he : e ∈ entries) (he' : e' ∈ entries)
    (hline : e.line = e'.line) : e = e' := by
  by_contra hne
  exact (build_ok hbuild).2.2.forall he he' hne hline

theorem index_of_line (hbuild : build entries = .ok cfgs) {i j : Nat} {e e' : Entry α} (he : entries[i]? = some e)
    (he' : entries[j]? = some e') (hline : e.line = e'.line) : i = j := by
  have hpairs := List.pairwise_iff_getElem.mp (build_ok hbuild).2.2
  obtain ⟨hi, rfl⟩ := List.getElem?_eq_some_iff.mp he
  obtain ⟨hj, rfl⟩ := List.getElem?_eq_some_iff.mp he'
  rcases Nat.lt_trichotomy i j with hlt | heq | hgt
  · exact absurd hline (hpairs i j hi hj hlt)
  · exact heq
  · exact absurd hline.symm (hpairs j i hj hi hgt)

theorem mem_zipIdx_config {x : Config α × Nat} (hx : x ∈ (entries.map Entry.config).zipIdx) :
    ∃ e, entries[x.2]? = some e ∧ x.1 = e.config := by
  have hget := List.mem_zipIdx_iff_getElem?.mp hx
  rw [List.getElem?_map, Option.map_eq_some_iff] at hget
  obtain ⟨e, he, hconfig⟩ := hget
  exact ⟨e, he, hconfig.symm⟩

theorem start_listed (hbuild : build entries = .ok cfgs) {i : Nat} {e : Entry α} (he : entries[i]? = some e) :
    (start pins entries h).gInstances e.line = some i := by
  have hmem : (e.config, i) ∈ (entries.map Entry.config).zipIdx := by
    rw [List.mem_zipIdx_iff_getElem?, List.getElem?_map, he, Option.map_some]
  refine writeAll_of_covered hmem (by simp [Entry.config]) fun x hx hcovered => ?_
  obtain ⟨e', he', hconfig⟩ := mem_zipIdx_config hx
  rw [hconfig] at hcovered
  rw [index_of_line hbuild he he' (beq_iff_eq.mp hcovered).symm]

theorem start_table (hbuild : build entries = .ok cfgs) {k i : Nat}
    (hk : (start pins entries h).gInstances k = some i) : ∃ e, entries[i]? = some e ∧ e.line = k := by
  by_cases hcovered : ∃ x ∈ (entries.map Entry.config).zipIdx, (x.1.interruptNum == k) = true
  · obtain ⟨x, hx, hline⟩ := hcovered
    obtain ⟨e, he, hconfig⟩ := mem_zipIdx_config hx
    rw [hconfig] at hline
    have hlisted : (start pins entries h).gInstances e.line = some x.2 := start_listed hbuild he
    rw [show e.line = k from beq_iff_eq.mp hline, hk, Option.some.injEq] at hlisted
    exact ⟨e, hlisted ▸ he, beq_iff_eq.mp hline⟩
  · have hnone : (start pins entries h).gInstances k = none :=
      writeAll_of_uncovered fun x hx => eq_false_of_ne_true fun hline => hcovered ⟨x, hx, hline⟩
    rw [hnone] at hk
    cases hk

/-- A line comes from the port of the device that has it. -/
theorem start_route (hin : Inscribed pins entries) (hbuild : build entries = .ok cfgs) {e : Entry α}
    (he : e ∈ entries) {p : Pins.Entry} {k : Nat} (hp : Attached pins e p k) :
    (start pins entries h).route k = p.config.route := by
  have hcovers : ∀ {p : Pins.Entry} {e : Entry α} {k' : Nat}, Attached pins e p k' →
      ((p.config.init.mode.isExti && p.config.init.pin.getLsbD k) = true ↔ k = k') := by
    intro p e k' hp
    simp [Pins.Entry.config, hp.mode, hp.pin, getLsbD_bit (Nat.lt_of_lt_of_le hp.lt (by decide : 16 ≤ 32))]
  simp only [start, init, Pins.init, foldl_apply]
  refine writeAll_of_covered (List.mem_map_of_mem (List.mem_of_getElem? hp.place)) ((hcovers hp).mpr rfl) ?_
  intro c hc hcovered
  obtain ⟨p', hp', rfl⟩ := Configuration.mem_config hc
  obtain ⟨e', he', hplace⟩ := hin.owned p' hp' (Bool.and_eq_true_iff.mp hcovered).1
  obtain ⟨p'', k', hattached⟩ := hin.attached e' he'
  cases hplace.symm.trans hattached.place
  have hline : e.line = e'.line := by
    rw [hp.line, hattached.line]
    exact (hcovers hattached).mp hcovered
  cases eq_of_line hbuild he he' hline
  cases hp.place.symm.trans hattached.place
  rfl

/-- The board starts wired. -/
theorem start_wired (hbuild : build entries = .ok cfgs) :
    Wired entries (start pins entries h).route (start pins entries h) where
  actions := by
    simp [start, init, Entry.config, Function.comp_def]
  table _ _ hk := start_table hbuild hk
  listed _ _ he := start_listed hbuild he
  enabled e he := by
    refine writeAll_of_covered (List.mem_map_of_mem he) ?_ fun _ _ _ => rfl
    simp [Entry.config]
  route := rfl
  handler pin hpin := by
    simp [start, init] at hpin

end Board

/-! ## Edges are answered -/

/-- The pins that a run visits. -/
def visits (events : List Event) : List (BitVec 16) :=
  events.filterMap fun
    | .visit pin => some pin
    | _ => none

theorem mem_visits {pin : BitVec 16} {events : List Event} (h : pin ∈ visits events) : .visit pin ∈ events := by
  obtain ⟨a, ha, hvisit⟩ := List.mem_filterMap.mp h
  cases a with
  | visit pin' =>
    cases hvisit
    exact ha
  | edge => cases hvisit
  | enter => cases hvisit
  | turn => cases hvisit

/-- A handler that is done has visited every pin it had before it. -/
theorem handler_visits {events : List Event} (hrun : exec step s events = some t) (hdone : t.handler = []) :
    s.handler <+: visits events := by
  induction events generalizing s with
  | nil =>
    cases hrun
    rw [hdone]
    exact List.nil_prefix
  | cons a events ih =>
    obtain ⟨u, hu, ht⟩ := Option.bind_eq_some_iff.mp hrun
    have hrest := ih ht
    cases a with
    | edge port line rising =>
      rw [Lines.step] at hu
      split at hu <;> cases hu <;> exact hrest
    | enter irq =>
      rw [Lines.step] at hu
      split at hu
      next henter =>
        rw [henter.1]
        exact List.nil_prefix
      · cases hu
    | visit pin =>
      rw [Lines.step] at hu
      split at hu
      next hhead =>
        cases hu
        rw [List.eq_cons_of_mem_head? hhead]
        exact List.cons_prefix_cons.mpr ⟨rfl, hrest⟩
      · cases hu
    | turn device on =>
      rw [Lines.step] at hu
      split at hu
      · cases hu
        exact hrest
      · cases hu

theorem Line.ran_le (action : Option α) (events : List LineEvent) (l : Line) :
    l.ran ≤ (events.foldl (Line.next action) l).ran := by
  induction events generalizing l with
  | nil => exact Nat.le_refl _
  | cons a events ih =>
    refine Nat.le_trans ?_ (ih (l.next action a))
    cases a with
    | edge => exact Nat.le_refl _
    | serve =>
      rw [Line.next]
      split
      · exact Nat.le_add_right _ _
      · exact Nat.le_refl _
    | turn on => exact Nat.le_refl _

/-- A line that is pending runs its action when it is served, as long as it stays on. -/
theorem Line.ran_lt {action : Option α} (haction : action.isSome = true) {events : List LineEvent} {l : Line}
    (hpending : l.pending = true) (hon : l.isOn = true) (hserve : .serve ∈ events)
    (hturn : ∀ on, .turn on ∉ events) : l.ran < (events.foldl (Line.next action) l).ran := by
  induction events generalizing l with
  | nil => simp at hserve
  | cons a events ih =>
    cases a with
    | edge =>
      have hserve' : .serve ∈ events := by simpa using hserve
      exact ih (l := { l with pending := true }) rfl hon hserve' fun on hmem => hturn on (by simp [hmem])
    | serve =>
      have hran : (l.next action .serve).ran = l.ran + 1 := by
        simp [Line.next, hpending, hon, haction]
      have hle := Line.ran_le action events (l.next action .serve)
      rw [hran] at hle
      exact hle
    | turn on => exact absurd (by simp) (hturn on)

section Board

variable {pins : List Pins.Entry} {cfgs : List (Config α)} {h : Hardware}

end Board

/-! ## One device -/

/-- A button on `PC13`. -/
def button : Device Unit where
  pin := { port := .c, pin := bit 13, afs := 0b1#16, single := ⟨13, by decide, rfl⟩ }
  trigger := .fallingEdge
  action := some ()

def buttonPins : List Pins.Entry := [button.gpio]

def buttonEntries : List (Entry Unit) := [{ pinIdx := 0, pinMask := bit 13, action := some () }]

def unrouted : Hardware :=
  { clock := fun _ => false
    settings := fun _ => { mode := .analog, pull := .none, speed := .low }
    alternate := fun _ => 0
    route := fun _ => none }

theorem button_attached : Attached buttonPins { pinIdx := 0, pinMask := bit 13, action := some () }
    button.gpio 13 where
  place := rfl
  mode := rfl
  lt := by decide
  pin := rfl
  mask := rfl

theorem button_inscribed : Inscribed buttonPins buttonEntries := inscribed_nil.device button

/-- The button is switched on and pressed, and so is one on the same pin of another port. -/
def presses : List Event := [.turn 0 true, .edge .c 13 false, .edge .a 13 false]

theorem presses_run : ∃ s, exec step (start buttonPins buttonEntries unrouted) presses = some s := by
  refine Option.isSome_iff_exists.mp ?_
  rfl

end StLib.Exti.Service
