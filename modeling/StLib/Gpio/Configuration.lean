import StLib.Gpio.Pins

/-! # What a board makes of its pins

The devices of a board ask for pins, in any order. Where the compiler accepts them, each pin
ends up as it was asked for, and no other pin is touched. -/
namespace StLib.Gpio.Configuration

open StLib.Base.RegisterBits StLib.Base.TableWrites StLib.Gpio.Pins

/-- What a device asks for. -/
structure Request where
  pin : Pin
  mode : OperationMode
  pull : Pull
  speed : Speed
  af : AlternateFunction

def Request.entry (r : Request) : Except String Entry := gpio r.pin r.mode r.pull r.speed r.af

/-- An entry of a request that the constructor accepted. -/
structure Made (r : Request) (e : Entry) : Prop where
  port : e.port = r.pin.port
  pin : e.pin = r.pin.pin
  mode : e.mode = r.mode
  pull : e.pull = r.pull
  speed : e.speed = r.speed
  af : e.af = r.af
  valid : r.pin.validAf r.af = true
  specified : r.mode.isAlternate = true → r.af ≠ .noAf

theorem Request.made {r : Request} {e : Entry} (h : r.entry = .ok e) : Made r e := by
  rw [Request.entry, gpio] at h
  split at h
  · cases h
  next hvalid =>
    split at h
    · cases h
    next hspecified =>
      cases h
      exact
        { port := rfl
          pin := rfl
          mode := rfl
          pull := rfl
          speed := rfl
          af := rfl
          valid := eq_true_of_ne_false hvalid
          specified := fun halternate hno => hspecified ⟨halternate, hno⟩ }

/-- What was asked for holds of the hardware. -/
structure Configured (h : Hardware) (r : Request) (k : Nat) : Prop where
  clock : h.clock r.pin.port = true
  settings : h.settings (r.pin.port, k) = { mode := r.mode, pull := r.pull, speed := r.speed }
  alternate : r.mode.isAlternate = true → ∃ n : Fin 16, r.af = .af n ∧
    h.alternate (r.pin.port, k) = BitVec.ofNat 32 n.val ∧ r.pin.afs.getLsbD (15 - n.val) = true

/-! ## The writes of `init` -/

/-- `init` writes four tables. -/
theorem foldl_apply (cfgs : List Config) (h : Hardware) :
    cfgs.foldl Config.apply h =
      { clock := writeAll (fun c port => c.port == port) (fun _ => true) h.clock cfgs
        settings := writeAll Config.pins Config.settings h.settings cfgs
        alternate := writeAll (fun c place => c.init.mode.isAlternate && c.pins place)
          (fun c => c.init.alternate) h.alternate cfgs
        route := writeAll (fun c k => c.init.mode.isExti && c.init.pin.getLsbD k) Config.route h.route cfgs } := by
  induction cfgs generalizing h with
  | nil => rfl
  | cons c cfgs ih =>
    rw [List.foldl_cons, ih]
    rfl

theorem mem_config {pins : List Entry} {c : Config} (hc : c ∈ pins.map Entry.config) :
    ∃ e ∈ pins, c = e.config := by
  obtain ⟨e, he, hconfig⟩ := List.mem_map.mp hc
  exact ⟨e, he, hconfig.symm⟩

section Accepted

variable {requests : List Request} {pins : List Entry} {cfgs : List Config}

/-- An entry that the board made. -/
theorem mem_made (hmade : List.Forall₂ (fun r e => r.entry = .ok e) requests pins) {e : Entry} (he : e ∈ pins) :
    ∃ r ∈ requests, Made r e := by
  induction hmade with
  | nil => simp at he
  | cons hentry _ ih =>
    rcases List.mem_cons.mp he with rfl | he
    · exact ⟨_, by simp, Request.made hentry⟩
    · obtain ⟨r, hr, hmade⟩ := ih he
      exact ⟨r, by simp [hr], hmade⟩

theorem mem_request (hmade : List.Forall₂ (fun r e => r.entry = .ok e) requests pins) {r : Request}
    (hr : r ∈ requests) : ∃ e ∈ pins, Made r e := by
  induction hmade with
  | nil => simp at hr
  | cons hentry _ ih =>
    rcases List.mem_cons.mp hr with rfl | hr
    · exact ⟨_, by simp, Request.made hentry⟩
    · obtain ⟨e, he, hmade⟩ := ih hr
      exact ⟨e, by simp [he], hmade⟩

/-- Entries that cover one place are of the same pin. -/
theorem samePin_of_pins {r r' : Request} {e e' : Entry} {place : Port × Nat} (hr : Made r e) (hr' : Made r' e')
    (h : e.config.pins place = true) (h' : e'.config.pins place = true) : SamePin e e' := by
  obtain ⟨k, hk, hpin⟩ := r.pin.single
  obtain ⟨k', hk', hpin'⟩ := r'.pin.single
  simp only [Config.pins, Entry.config, Bool.and_eq_true, beq_iff_eq] at h h'
  rw [hr.pin, hpin, getLsbD_bit (Nat.lt_of_lt_of_le hk (by decide)), decide_eq_true_iff] at h
  rw [hr'.pin, hpin', getLsbD_bit (Nat.lt_of_lt_of_le hk' (by decide)), decide_eq_true_iff] at h'
  refine ⟨?_, h.1.trans h'.1.symm⟩
  rw [hr.pin, hr'.pin, hpin, hpin', ← h.2, ← h'.2]

instance : Std.Symm fun e e' => ¬ SamePin e e' := ⟨fun _ _ h hs => h hs.symm⟩

/-- Of accepted entries one covers a place. -/
theorem eq_of_pins (hmade : List.Forall₂ (fun r e => r.entry = .ok e) requests pins)
    (hpairs : pins.Pairwise fun e e' => ¬ SamePin e e') {place : Port × Nat} {e e' : Entry} (he : e ∈ pins)
    (he' : e' ∈ pins) (h : e.config.pins place = true) (h' : e'.config.pins place = true) : e' = e := by
  obtain ⟨r, -, hr⟩ := mem_made hmade he
  obtain ⟨r', -, hr'⟩ := mem_made hmade he'
  have hsame := samePin_of_pins hr hr' h h'
  by_contra hne
  exact hpairs.forall he he' (Ne.symm hne) hsame

/-- The function number that is written is the one asked for. -/
theorem alternate_value (n : Fin 16) : 15 - BitVec.ofNat 32 (AlternateFunction.af n).value = BitVec.ofNat 32 n.val := by
  revert n
  decide

/-- An alternate function that a pin has is a bit of its mask. -/
theorem afs_of_valid {p : Pin} {n : Fin 16} (h : p.validAf (.af n) = true) : p.afs.getLsbD (15 - n.val) = true := by
  have hlt : 15 - n.val < 16 := by omega
  rw [Pin.validAf, if_neg AlternateFunction.noConfusion, decide_eq_true_iff, BitVec.and_comm] at h
  have hbit := (and_bit_eq_zero_iff hlt p.afs).not.mp h
  simpa using hbit

/-- The tables agree on a place whichever order the entries have. -/
theorem writeAll_perm {ν : Type} {covers : Config → Port × Nat → Bool} {value : Config → ν}
    {pins' : List Entry} (table : Port × Nat → ν) (hcovers : ∀ c place, covers c place = true → c.pins place = true)
    (hmade : List.Forall₂ (fun r e => r.entry = .ok e) requests pins)
    (hpairs : pins.Pairwise fun e e' => ¬ SamePin e e') (hperm : pins.Perm pins') :
    writeAll covers value table (pins'.map Entry.config) = writeAll covers value table (pins.map Entry.config) := by
  funext place
  by_cases hsome : ∃ e ∈ pins, covers e.config place = true
  · obtain ⟨e, he, hcovered⟩ := hsome
    have honly : ∀ e' ∈ pins, covers e'.config place = true → e' = e := fun e' he' h' =>
      eq_of_pins hmade hpairs he he' (hcovers _ _ hcovered) (hcovers _ _ h')
    have hvalue : ∀ l : List Entry, l.Perm pins →
        writeAll covers value table (l.map Entry.config) place = value e.config := by
      intro l hl
      refine writeAll_of_covered (List.mem_map_of_mem (hl.mem_iff.mpr he)) hcovered ?_
      intro c hc h'
      obtain ⟨e', he', rfl⟩ := mem_config hc
      rw [honly e' (hl.mem_iff.mp he') h']
    rw [hvalue pins' hperm.symm, hvalue pins (List.Perm.refl _)]
  · have hnone : ∀ l : List Entry, l.Perm pins →
        writeAll covers value table (l.map Entry.config) place = table place := by
      intro l hl
      refine writeAll_of_uncovered fun c hc => ?_
      obtain ⟨e', he', rfl⟩ := mem_config hc
      exact eq_false_of_ne_true fun h => hsome ⟨e', hl.mem_iff.mp he', h⟩
    rw [hnone pins' hperm.symm, hnone pins (List.Perm.refl _)]

/-- What `init` leaves of an accepted request. -/
theorem configured_init (hmade : List.Forall₂ (fun r e => r.entry = .ok e) requests pins)
    (hpairs : pins.Pairwise fun e e' => ¬ SamePin e e') (h : Hardware) {r : Request} (hr : r ∈ requests) {k : Nat}
    (hk : r.pin.pin.getLsbD k = true) : Configured (init (pins.map Entry.config) h).1 r k := by
  obtain ⟨e, he, hmatch⟩ := mem_request hmade hr
  have hmem : e.config ∈ pins.map Entry.config := List.mem_map_of_mem he
  have hcovers : e.config.pins (r.pin.port, k) = true := by
    simp [Config.pins, Entry.config, hmatch.port, hmatch.pin, hk]
  have honly : ∀ c ∈ pins.map Entry.config, c.pins (r.pin.port, k) = true → c = e.config := by
    intro c hc hpins
    obtain ⟨e', he', rfl⟩ := mem_config hc
    rw [eq_of_pins hmade hpairs he he' hcovers hpins]
  have hsettings : e.config.settings = { mode := r.mode, pull := r.pull, speed := r.speed } := by
    simp [Config.settings, Entry.config, hmatch.mode, hmatch.pull, hmatch.speed]
  simp only [init, foldl_apply]
  constructor
  · refine writeAll_of_covered hmem ?_ fun _ _ _ => rfl
    simp [Entry.config, hmatch.port]
  · rw [← hsettings]
    exact writeAll_of_covered hmem hcovers fun c hc hpins => by rw [honly c hc hpins]
  · intro halternate
    obtain hno | ⟨n, hn⟩ : r.af = .noAf ∨ ∃ n, r.af = .af n := by
      cases r.af with
      | noAf => exact .inl rfl
      | af n => exact .inr ⟨n, rfl⟩
    · exact absurd hno (hmatch.specified halternate)
    · have hmode : e.config.init.mode.isAlternate = true := by
        simp [Entry.config, hmatch.mode, halternate]
      have hnumber : e.config.init.alternate = BitVec.ofNat 32 n.val := by
        rw [← alternate_value n]
        simp [Entry.config, hmatch.mode, halternate, hmatch.af, hn]
      refine ⟨n, hn, ?_, afs_of_valid (hn ▸ hmatch.valid)⟩
      rw [← hnumber]
      refine writeAll_of_covered hmem (by simp [hmode, hcovers]) fun c hc hpins => ?_
      rw [honly c hc (Bool.and_eq_true_iff.mp hpins).2]

end Accepted

/-- `PA5` and `PA0`. -/
def pa5 : Pin := { port := .a, pin := bit 5, afs := 0b1101010010101111#16, single := ⟨5, by decide, rfl⟩ }

def pa0 : Pin := { port := .a, pin := bit 0, afs := 0b0111110111111001#16, single := ⟨0, by decide, rfl⟩ }

/-- An output, and a pin of a timer. -/
def twoRequests : List Request :=
  [{ pin := pa5, mode := .outputPushPull, pull := .none, speed := .low, af := .noAf },
    { pin := pa0, mode := .altPp, pull := .none, speed := .low, af := .af 2 }]

def twoEntries : List Entry :=
  [{ port := .a, pin := bit 5, mode := .outputPushPull, pull := .none, speed := .low, af := .noAf },
    { port := .a, pin := bit 0, mode := .altPp, pull := .none, speed := .low, af := .af 2 }]

def afterReset : Hardware :=
  { clock := fun _ => false
    settings := fun _ => { mode := .analog, pull := .none, speed := .low }
    alternate := fun _ => 0
    route := fun _ => none }

end StLib.Gpio.Configuration
