import StLib.Base.Runs

/-! # Programs that can be interrupted

A program and the handler of an interrupt share a state. `lock` switches the interrupt
off and `unlock` switches it on; they do not nest, so an `unlock` inside a section opens
all of it. An interrupt that is taken where no section is open or closed has the effect
of one taken before the program or after it. -/
namespace StLib.Base.Interrupts

open StLib.Base.Runs

variable {σ : Type}

/-- `act f k` changes the state by `f` and goes on with what `k` makes of the state that
it found. -/
inductive Program (σ : Type)
  | ret
  | act (f : σ → σ) (k : σ → Program σ)
  | lock (k : Program σ)
  | unlock (k : Program σ)

namespace Program

def read (k : σ → Program σ) : Program σ := .act id k

/-- An access that needs nothing of what it finds. -/
def write (f : σ → σ) (k : Program σ) : Program σ := .act f fun _ => k

/-- The program without interrupts. -/
def run : Program σ → σ → σ
  | .ret, s => s
  | .act f k, s => (k s).run (f s)
  | .lock k, s => k.run s
  | .unlock k, s => k.run s

/-- Inside `n` sections, which the program leaves before it returns; it enters none
afterwards. -/
def Closes : Program σ → Nat → Prop
  | .ret, n => n = 0
  | .act _ k, n => 0 < n ∧ ∀ s, (k s).Closes n
  | .lock k, n => 0 < n ∧ k.Closes (n + 1)
  | .unlock k, n => 0 < n ∧ k.Closes (n - 1)

end Program

/-- A program under way. `depth` counts the sections it is in. -/
structure Config (σ : Type) where
  program : Program σ
  state : σ
  enabled : Bool := true
  depth : Nat := 0

/-- Whose turn it is. -/
inductive Turn
  | code
  | interrupt
deriving DecidableEq

variable (handler : σ → Option σ)

def next : Config σ → Turn → Option (Config σ)
  | ⟨.ret, _, _, _⟩, .code => none
  | ⟨.act f k, s, e, d⟩, .code => some ⟨k s, f s, e, d⟩
  | ⟨.lock k, s, _, d⟩, .code => some ⟨k, s, false, d + 1⟩
  | ⟨.unlock k, s, _, d⟩, .code => some ⟨k, s, true, d - 1⟩
  | ⟨_, _, false, _⟩, .interrupt => none
  | ⟨p, s, true, d⟩, .interrupt => (handler s).map fun t => ⟨p, t, true, d⟩

def Step (c : Config σ) (e : Turn) (c' : Config σ) : Prop := next handler c e = some c'

theorem next_interrupt (p : Program σ) (s : σ) (d : Nat) :
    next handler ⟨p, s, true, d⟩ .interrupt = (handler s).map fun t => ⟨p, t, true, d⟩ := by
  cases p <;> rfl

/-- No interrupt is taken inside a section. -/
def Outside (c : Config σ) (e : Turn) : Prop := e = .interrupt → c.depth = 0

def iterate : Nat → σ → Option σ
  | 0, s => some s
  | n + 1, s => (iterate n s).bind handler

/-! ## Up to the first section -/

/-- What the program has done so far is done the same way before and after an interrupt. -/
def Commutes (O : σ → Prop) (E : σ → σ) : Prop := ∀ s, O s → handler (E s) = (handler s).map E

/-- In the states `O` the accesses of the program, which has done `E` so far, commute with
the handler up to its first section, and so does what it reads there. -/
inductive Steady (O : σ → Prop) : (σ → σ) → Program σ → Prop
  | ret {E : σ → σ} (comm : Commutes handler O E) : Steady O E .ret
  | act {E E' f : σ → σ} {k : σ → Program σ} {p : Program σ} (comm : Commutes handler O E)
      (next : ∀ s, O s → f (E s) = E' s ∧ k (E s) = p) (rest : Steady O E' p) :
      Steady O E (.act f k)
  | lock {E : σ → σ} {k : Program σ} (comm : Commutes handler O E) (rest : k.Closes 1) :
      Steady O E (.lock k)

/-- Where the program is: it has not entered its section, is in it, or has left it. The
state is that of a run with `n` interrupts before the program and after it. -/
inductive Serial (O : σ → Prop) (p : Program σ) (b : σ) : Nat → Config σ → Prop
  | before {n : Nat} {u : σ} {E : σ → σ} {q : Program σ} (hu : iterate handler n b = some u)
      (hO : O u) (hq : Steady handler O E q) (hrun : ∀ v, O v → q.run (E v) = p.run v) :
      Serial O p b n ⟨q, E u, true, 0⟩
  | inside {n d : Nat} {u s : σ} {e : Bool} {q : Program σ} (hu : iterate handler n b = some u)
      (hd : 0 < d) (hq : q.Closes d) (hrun : q.run s = p.run u) : Serial O p b n ⟨q, s, e, d⟩
  | after {i j : Nat} {u t : σ} (hu : iterate handler i b = some u)
      (ht : iterate handler j (p.run u) = some t) : Serial O p b (i + j) ⟨.ret, t, true, 0⟩

variable {handler} {O : σ → Prop} {p : Program σ} {b : σ} {n : Nat} {c c' : Config σ}

theorem Steady.comm {E : σ → σ} (h : Steady handler O E p) : Commutes handler O E := by
  cases h with
  | ret comm => exact comm
  | act comm => exact comm
  | lock comm => exact comm

theorem Serial.code (h : Serial handler O p b n c) (hs : Step handler c .code c') :
    Serial handler O p b n c' := by
  cases h with
  | @before n u E q hu hO hq hrun =>
    cases hq with
    | ret => cases hs
    | @act _ E' f k r _ next rest =>
      obtain rfl := Option.some.inj hs
      obtain ⟨hf, hk⟩ := next u hO
      rw [hf, hk]
      refine .before hu hO rest fun v hv => ?_
      obtain ⟨hf, hk⟩ := next v hv
      rw [← hf, ← hk]
      exact hrun v hv
    | lock _ rest =>
      obtain rfl := Option.some.inj hs
      exact .inside hu Nat.one_pos rest (hrun u hO)
  | @inside n d u s e q hu hd hq hrun =>
    cases q with
    | ret => cases hs
    | act f k =>
      obtain rfl := Option.some.inj hs
      exact .inside hu hd (hq.2 s) hrun
    | lock k =>
      obtain rfl := Option.some.inj hs
      exact .inside hu (Nat.succ_pos d) hq.2 hrun
    | unlock k =>
      obtain rfl := Option.some.inj hs
      obtain ⟨d, rfl⟩ := Nat.exists_eq_add_one_of_ne_zero (Nat.ne_of_gt hd)
      have hk : k.Closes d := hq.2
      cases d with
      | zero =>
        cases k with
        | ret => exact .after (j := 0) hu (congrArg some hrun.symm)
        | act => exact absurd hk.1 (Nat.lt_irrefl 0)
        | lock => exact absurd hk.1 (Nat.lt_irrefl 0)
        | unlock => exact absurd hk.1 (Nat.lt_irrefl 0)
      | succ d => exact .inside hu (Nat.succ_pos d) hk hrun
  | after => cases hs

theorem Serial.interrupt (hO : ∀ s t, O s → handler s = some t → O t)
    (h : Serial handler O p b n c) (hout : c.depth = 0)
    (hs : Step handler c .interrupt c') : Serial handler O p b (n + 1) c' := by
  cases h with
  | @before n u E q hu hOu hq hrun =>
    rw [Step, next_interrupt, hq.comm u hOu] at hs
    obtain ⟨_, ht, rfl⟩ := Option.map_eq_some_iff.mp hs
    obtain ⟨v, hv, rfl⟩ := Option.map_eq_some_iff.mp ht
    exact .before (by rw [iterate, hu]; exact hv) (hO u v hOu hv) hq hrun
  | inside hu hd => exact absurd hout (Nat.ne_of_gt hd)
  | @after i j u t hu ht =>
    rw [Step, next_interrupt] at hs
    obtain ⟨v, hv, rfl⟩ := Option.map_eq_some_iff.mp hs
    exact .after (j := j + 1) hu (by rw [iterate, ht]; exact hv)

theorem serial_of_run (hO : ∀ s t, O s → handler s = some t → O t) (hb : O b)
    (hp : Steady handler O id p) {es : List Turn}
    (r : Run (Step handler) Outside ⟨p, b, true, 0⟩ es c) :
    Serial handler O p b (es.count .interrupt) c := by
  induction r with
  | nil => exact .before rfl hb hp fun _ _ => rfl
  | @snoc t u ls e r hout hs ih =>
    rw [List.count_append]
    cases e with
    | code => exact ih.code hs
    | interrupt => exact ih.interrupt hO (hout rfl) hs

/-- **A program with interrupts outside its section** leaves the state of a run with
some of them before it and the others after it. -/
theorem run_serial (hO : ∀ s t, O s → handler s = some t → O t) (hb : O b)
    (hp : Steady handler O id p) {es : List Turn}
    (r : Run (Step handler) Outside ⟨p, b, true, 0⟩ es c) (hret : c.program = .ret) :
    ∃ i j u, i + j = es.count .interrupt ∧ iterate handler i b = some u ∧
      iterate handler j (p.run u) = some c.state := by
  have hserial := serial_of_run hO hb hp r
  generalize es.count .interrupt = n at hserial
  cases hserial with
  | @before n u E q hu hOu hq hrun =>
    cases hret
    exact ⟨_, 0, u, Nat.add_zero _, hu, congrArg some (hrun u hOu).symm⟩
  | inside hu hd hq =>
    cases hret
    exact absurd hq (Nat.ne_of_gt hd)
  | @after i j u t hu ht => exact ⟨i, j, u, rfl, hu, ht⟩

end StLib.Base.Interrupts
