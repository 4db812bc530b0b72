import StLib.Ethernet.Endpoint

/-! # What the lwIP calls do

One lemma for each call on a block or a `pbuf` that is allocated. -/
namespace StLib.Ethernet.Calls

open Base.Bytes (Byte)
open Lwip
open Endpoint

variable {σ ρ α β : Type}

/-! ## Running -/

theorem run_bind {τ : Type} (m : StateM τ α) (f : α → StateM τ β) (s : τ) :
    (m >>= f) s = f (m s).1 (m s).2 := rfl

theorem run_pure {τ : Type} (a : α) (s : τ) : (pure a : StateM τ α) s = (a, s) := rfl

theorem run_get {τ : Type} (s : τ) : (get : StateM τ τ) s = (s, s) := rfl

theorem run_get_bind {τ : Type} (f : τ → StateM τ β) (s : τ) : (get >>= f) s = f s s := rfl

theorem run_set_bind {τ : Type} (t : τ) (k : PUnit → StateM τ β) (s : τ) :
    (set t >>= k) s = k ⟨⟩ t := rfl

theorem run_modify_bind {τ : Type} (f : τ → τ) (k : PUnit → StateM τ β) (s : τ) :
    (modify f >>= k) s = k ⟨⟩ (f s) := rfl

theorem run_stack_bind (m : StateM Stack α) (k : α → M σ ρ β) (w : World σ ρ) :
    (stack m >>= k) w = k (m w.lwip).1 { w with lwip := (m w.lwip).2 } := rfl

theorem run_modify {τ : Type} (f : τ → τ) (s : τ) : (modify f : StateM τ PUnit) s = ((), f s) := rfl

theorem run_ite {τ : Type} {c : Prop} [Decidable c] (m m' : StateM τ α) (s : τ) :
    (if c then m else m') s = if c then m s else m' s := by
  split <;> rfl

theorem run_stack (m : StateM Stack α) (w : World σ ρ) :
    stack m w = ((m w.lwip).1, { w with lwip := (m w.lwip).2 }) := rfl

/-- One more call of the kind `f`. -/
def counted (f : Fn) (l : Stack) : Stack :=
  { l with count := Function.update l.count f (l.count f + 1) }

theorem run_ask (f : Fn) (answer : Nat → α) (l : Stack) :
    ask f answer l = (answer (l.count f), counted f l) := rfl

/-! ## Control blocks -/

section Blocks

variable {p : Nat} {b : Block} {l : Stack}

theorem use_eq (h : l.blocks p = some b) : use p l = ((), l) := by
  simp only [use, run_bind, run_get, h]
  rfl

theorem tcpState_eq (h : l.blocks p = some b) : tcpState p l = (b.state, l) := by
  simp only [tcpState, run_bind, run_get, h]
  rfl

theorem tcpSndbuf_eq (env : Env) (h : l.blocks p = some b) :
    tcpSndbuf env p l = (env.tcpSndbuf (l.count .tcpSndbuf), counted .tcpSndbuf l) := by
  rw [tcpSndbuf, run_bind, use_eq h]
  rfl

theorem tcpBind_eq (env : Env) (h : l.blocks p = some b) :
    tcpBind env p l = (env.tcpBind (l.count .tcpBind), counted .tcpBind l) := by
  rw [tcpBind, run_bind, use_eq h]
  rfl

theorem tcpWrite_eq (env : Env) (h : l.blocks p = some b) (data : List Byte) :
    tcpWrite env p data l = (env.tcpWrite (l.count .tcpWrite),
      if env.tcpWrite (l.count .tcpWrite) = .ok then
        { counted .tcpWrite l with written := Function.update l.written p (l.written p ++ data) }
      else counted .tcpWrite l) := by
  rw [tcpWrite, run_bind, use_eq h, run_bind, run_ask]
  by_cases hok : env.tcpWrite (l.count .tcpWrite) = .ok
  · rw [if_pos hok, if_pos hok]
    rfl
  · rw [if_neg hok, if_neg hok]
    rfl

theorem tcpClose_eq (env : Env) (h : l.blocks p = some b) :
    tcpClose env p l = (env.tcpClose (l.count .tcpClose),
      if env.tcpClose (l.count .tcpClose) = .ok then
        { counted .tcpClose l with blocks := Function.update l.blocks p none }
      else counted .tcpClose l) := by
  rw [tcpClose, run_bind, use_eq h, run_bind, run_ask]
  by_cases hok : env.tcpClose (l.count .tcpClose) = .ok
  · rw [if_pos hok, if_pos hok]
    rfl
  · rw [if_neg hok, if_neg hok]
    rfl

theorem update_eq (f : Block → Block) (h : l.blocks p = some b) :
    update p f l = ((), { l with blocks := Function.update l.blocks p (some (f b)) }) := by
  simp only [update, run_bind, run_get, h]
  rfl

theorem tcpNew_eq (env : Env) (l : Stack) :
    tcpNew env l =
      if env.tcpNew (l.count .tcpNew) then
        (some l.nextBlock, { counted .tcpNew l with
          blocks := Function.update l.blocks l.nextBlock (some {}), nextBlock := l.nextBlock + 1 })
      else (none, counted .tcpNew l) := by
  rw [tcpNew, run_bind, run_ask, run_ite]
  rfl

/-- The stack after `tcp_listen`. -/
def listened (p : Nat) (l : Stack) : Stack :=
  { counted .tcpListen l with
    blocks := Function.update (Function.update l.blocks p none) l.nextBlock (some { state := .other })
    nextBlock := l.nextBlock + 1 }

theorem tcpListen_eq (env : Env) (h : l.blocks p = some b) :
    tcpListen env p l =
      if env.tcpListen (l.count .tcpListen) then (some l.nextBlock, listened p l)
      else (none, counted .tcpListen l) := by
  rw [tcpListen, run_bind, use_eq h, run_bind, run_ask, run_ite]
  rfl

/-- A block that is connected once. -/
def connectedBlock (error : Err) (b : Block) : Block :=
  if error = .ok then { b with state := .synSent, connected := true } else b

theorem tcpConnect_eq (env : Env) (h : l.blocks p = some b) (hclosed : b.state = .closed) :
    tcpConnect env p l = (env.tcpConnect (l.count .tcpConnect), { counted .tcpConnect l with
      blocks := Function.update l.blocks p
        (some (connectedBlock (env.tcpConnect (l.count .tcpConnect)) b)) }) := by
  have hcounted : (counted .tcpConnect l).blocks p = some b := h
  rw [tcpConnect, run_bind, tcpState_eq h, run_ite, if_neg (not_not.mpr hclosed), run_bind, run_ask]
  by_cases hok : env.tcpConnect (l.count .tcpConnect) = .ok
  · rw [if_pos hok, run_bind, update_eq _ hcounted, connectedBlock, if_pos hok]
    rfl
  · rw [if_neg hok, connectedBlock, if_neg hok, ← h, Function.update_eq_self]
    rfl

/-- A block that is not closed is not connected again. -/
theorem tcpConnect_isConn (env : Env) (h : l.blocks p = some b) (hopen : b.state ≠ .closed) :
    tcpConnect env p l = (.isConn, l) := by
  rw [tcpConnect, run_bind, tcpState_eq h, run_ite, if_pos hopen]
  rfl

/-- The stack after `tcp_abort`. -/
def abortBlock (p : Nat) (l : Stack) : Stack :=
  { l with blocks := Function.update l.blocks p none, aborted := l.aborted ++ [p] }

/-- A block without an error callback is only freed. -/
theorem tcpAbort_eq (onError : OnError → M σ ρ Unit) {w : World σ ρ} (h : w.lwip.blocks p = some b)
    (herr : b.err = none) : tcpAbort onError p w = ((), { w with lwip := abortBlock p w.lwip }) := by
  simp only [tcpAbort, run_bind, run_get, h, herr]
  rfl

/-- The stack after `tcp_close`, and `tcp_abort` where that failed. -/
def closedBlock (env : Env) (p : Nat) (l : Stack) : Stack :=
  { counted .tcpClose l with
    blocks := Function.update l.blocks p none
    aborted := if env.tcpClose (l.count .tcpClose) = .ok then l.aborted else l.aborted ++ [p] }

/-- A block without an error callback is closed or aborted. -/
theorem closeOrAbort_eq (env : Env) (onError : OnError → M σ ρ Unit) (k : M σ ρ β) {w : World σ ρ}
    (h : w.lwip.blocks p = some b) (herr : b.err = none) :
    (do
      let closeError ← stack (tcpClose env p)
      if closeError ≠ .ok then tcpAbort onError p
      k : M σ ρ β) w = k { w with lwip := closedBlock env p w.lwip } := by
  rw [run_stack_bind, tcpClose_eq env h, run_ite, closedBlock]
  by_cases hok : env.tcpClose (w.lwip.count .tcpClose) = .ok
  · rw [if_neg (not_not.mpr hok), if_pos hok, if_pos hok]
    rfl
  · have habort : tcpAbort onError p { w with lwip := counted .tcpClose w.lwip } = _ :=
      tcpAbort_eq onError h herr
    rw [if_pos hok, if_neg hok, if_neg hok, run_bind]
    dsimp only
    rw [habort]
    rfl

theorem mem_abortBlock (l : Stack) (q : Nat) : q ∈ (abortBlock p l).aborted ↔ q ∈ l.aborted ∨ q = p := by
  simp [abortBlock]

theorem mem_closedBlock {env : Env} (l : Stack) (q : Nat) :
    q ∈ (closedBlock env p l).aborted ↔
      q ∈ l.aborted ∨ q = p ∧ env.tcpClose (l.count .tcpClose) ≠ .ok := by
  rw [closedBlock]
  dsimp only
  split <;> simp [*]

end Blocks

/-! ## Changes of one block -/

/-- `w'` is `w` with `b` at the block `p`. -/
def Touched (p : Nat) (b : Block) (w w' : World σ ρ) : Prop :=
  w' = { w with lwip := { w.lwip with blocks := Function.update w.lwip.blocks p (some b) } }

namespace Touched

variable {p : Nat} {b : Block} {w w' : World σ ρ} {r : β × World σ ρ}

theorem start (h : w.lwip.blocks p = some b) : Touched p b w w := by
  rw [Touched, ← h, Function.update_eq_self]

theorem block (h : Touched p b w w') : w'.lwip.blocks p = some b := by
  rw [h]
  exact Function.update_self ..

theorem step (h : Touched p b w w') {f : Block → Block} {k : Unit → M σ ρ β}
    (hk : ∀ t, Touched p (f b) w t → k () t = r) : (stack (update p f) >>= k) w' = r := by
  rw [run_bind, run_stack, update_eq f h.block]
  refine hk _ ?_
  subst h
  rw [Touched]
  simp only [Function.update_idem]

theorem skip (h : Touched p b w w') {k : Unit → M σ ρ β} (hk : k () w' = r) :
    (stack (use p) >>= k) w' = r := by
  rw [run_bind, run_stack, use_eq h.block]
  exact hk

end Touched

/-! ## pbufs -/

section Pbufs

variable {b : Nat} {data : List Byte} {l : Stack}

theorem pbufPayload_eq (h : l.pbufs b = some data) : pbufPayload b l = (data, l) := by
  simp only [pbufPayload, run_bind, run_get, h]
  rfl

theorem pbufFree_eq (h : l.pbufs b = some data) :
    pbufFree b l = ((), { l with pbufs := Function.update l.pbufs b none }) := by
  simp only [pbufFree, run_bind, run_get, h]
  rfl

theorem pbufCopyPartial_eq (env : Env) (h : l.pbufs b = some data) :
    pbufCopyPartial env b l =
      (env.pbufCopyPartial (l.count .pbufCopyPartial), counted .pbufCopyPartial l) := by
  rw [pbufCopyPartial, run_bind, pbufPayload_eq h]
  rfl

theorem pbufAlloc_eq (env : Env) (size : Nat) (l : Stack) :
    pbufAlloc env size l =
      if env.pbufAlloc (l.count .pbufAlloc) then
        (some l.nextPbuf, { counted .pbufAlloc l with
          pbufs := Function.update l.pbufs l.nextPbuf (some (List.replicate size 0))
          nextPbuf := l.nextPbuf + 1 })
      else (none, counted .pbufAlloc l) := by
  rw [pbufAlloc, run_bind, run_ask, run_ite]
  rfl

theorem pbufTake_eq (env : Env) (h : l.pbufs b = some data) (source : List Byte) :
    pbufTake env b (some source) l = (env.pbufTake (l.count .pbufTake),
      if env.pbufTake (l.count .pbufTake) = .ok then
        { counted .pbufTake l with pbufs := Function.update l.pbufs b (some source) }
      else counted .pbufTake l) := by
  rw [pbufTake, run_bind, pbufPayload_eq h]
  dsimp only
  rw [run_bind, run_ask]
  by_cases hok : env.pbufTake (l.count .pbufTake) = .ok
  · rw [if_pos hok, if_pos hok]
    rfl
  · rw [if_neg hok, if_neg hok]
    rfl

theorem pbufTake_none (env : Env) (h : l.pbufs b = some data) : pbufTake env b none l = (.val, l) := by
  rw [pbufTake, run_bind, pbufPayload_eq h]
  rfl

end Pbufs

end StLib.Ethernet.Calls
