import StLib.Base.Chunks
import StLib.Communication.OrderStream

/-! # Tables of orders

What a table of orders is to the parser: the ids, and how many bytes the frames of each
order have. A frame of fixed size says so before it is parsed; a self-sized one is as
long as its own bytes say. The reference decoder takes a frame once it is complete. -/
namespace StLib.Communication.OrderTable

open StLib.Base.Bytes StLib.Base.Chunks StLib.Communication.OrderStream

/-- The size of a frame, read off its own first bytes. -/
structure Extent where
  size : Memory → Nat
  pos : ∀ d, 0 < size d
  ofPrefix : ∀ {d d' : Memory}, (∀ i < size d, d i = d' i) → size d' = size d

inductive Kind
  | fixed (size : Nat) (pos : 0 < size)
  | selfSized (extent : Extent)

/-- What `get_size` is before an order is parsed. -/
def Kind.announced : Kind → Nat
  | .fixed size _ => size
  | .selfSized _ => 0

def Kind.extent : Kind → Extent
  | .fixed size pos => { size := fun _ => size, pos := fun _ => pos, ofPrefix := fun _ => rfl }
  | .selfSized extent => extent

/-- An order that says its size says how long its frames are. -/
theorem Kind.size_eq_announced {k : Kind} (h : 0 < k.announced) (d : Memory) :
    k.extent.size d = k.announced := by
  cases k with
  | fixed => rfl
  | selfSized => cases h

structure Table where
  find : BitVec 16 → Option Nat
  kind : Nat → Kind

variable {σ : Type}

/-- What a dispatched order makes of the state. -/
def handle (O : Orders σ) (order : Nat) (data : Memory) (s : σ) : σ :=
  O.resetForReceive order (O.process order (O.parse order data (O.storeIpOrder order s)))

/-- In the states `I` the orders are those of the table, and no callback changes that. -/
structure Lawful (O : Orders σ) (T : Table) (I : σ → Prop) : Prop where
  find : ∀ {s}, I s → O.find s = T.find
  findStored : ∀ {s}, I s → ∀ order, O.find (O.storeIpOrder order s) = T.find
  announced : ∀ {s}, I s → ∀ order, O.getSize order s = (T.kind order).announced
  consumed : ∀ {s}, I s → ∀ order data,
    taken (O.getSize order (O.process order (O.parse order data (O.storeIpOrder order s)))) =
      (T.kind order).extent.size data
  reads : ∀ {s}, I s → ∀ order data,
    O.reads order data (O.storeIpOrder order s) ≤ (T.kind order).extent.size data
  ofPrefix : ∀ {s}, I s → ∀ order {d d' : Memory},
    (∀ i < (T.kind order).extent.size d, d i = d' i) →
      O.parse order d' (O.storeIpOrder order s) = O.parse order d (O.storeIpOrder order s)
  keeps : ∀ {s}, I s → ∀ order data, I (handle O order data s)

/-! ## Bytes that are there -/

theorem getId_append {bytes : List Byte} (more : List Byte) (beyond beyond' : Memory)
    (h : 2 ≤ bytes.length) :
    getId (memory (bytes ++ more) beyond') = getId (memory bytes beyond) := by
  rw [getId, getId, memory_append more beyond beyond' (show 0 < bytes.length by omega),
    memory_append more beyond beyond' (show 1 < bytes.length by omega)]

theorem getId_beyond {bytes : List Byte} (beyond beyond' : Memory) (h : 2 ≤ bytes.length) :
    getId (memory bytes beyond) = getId (memory bytes beyond') := by
  have := getId_append [] beyond' beyond h
  rwa [List.append_nil] at this

/-- A frame that is complete is complete whatever follows it. -/
theorem size_append {bytes : List Byte} (e : Extent) (more : List Byte) (beyond beyond' : Memory)
    (h : e.size (memory bytes beyond) ≤ bytes.length) :
    e.size (memory (bytes ++ more) beyond') = e.size (memory bytes beyond) :=
  e.ofPrefix fun i hi => memory_append more beyond beyond' (by omega)

/-- Whether a frame is complete is read off the bytes that are there. -/
theorem size_complete {bytes : List Byte} (e : Extent) (beyond beyond' : Memory) :
    e.size (memory bytes beyond) ≤ bytes.length ↔ e.size (memory bytes beyond') ≤ bytes.length := by
  have h : ∀ b b', e.size (memory bytes b) ≤ bytes.length →
      e.size (memory bytes b') ≤ bytes.length := fun b b' hb => by
    have := size_append e [] b b' hb
    rw [List.append_nil] at this
    rwa [this]
  exact ⟨h _ _, h _ _⟩

/-! ## The reference decoder -/

/-- The bytes, and zeros behind them. -/
def image (bytes : List Byte) : Memory := memory bytes fun _ => 0#8

/-- Drop a byte that starts no frame, or take a frame that is complete. -/
def referenceStep (O : Orders σ) (T : Table) (s : σ) (rest : List Byte) :
    Option (List Frame × σ × List Byte) :=
  if rest.length < 2 then none
  else
    match T.find (getId (image rest)) with
    | none => some ([], s, rest.drop 1)
    | some order =>
      if 0 < (T.kind order).announced ∧ (T.kind order).announced < 2 then
        some ([], s, rest.drop 1)
      else
        let size := (T.kind order).extent.size (image rest)
        if rest.length < size then none
        else some ([{ order, bytes := rest.take size }], handle O order (image rest) s,
          rest.drop size)

theorem referenceStep_shortens {O : Orders σ} {T : Table} {s t : σ} {l r : List Byte}
    {e : List Frame} (h : referenceStep O T s l = some (e, t, r)) : r.length < l.length := by
  unfold referenceStep at h
  split at h
  next => cases h
  next hlen =>
    have hdrop : ∀ n, 0 < n → (l.drop n).length < l.length := fun n hn => by
      rw [List.length_drop]
      omega
    split at h
    next => cases h; exact hdrop 1 Nat.one_pos
    next order _ =>
      split at h
      next => cases h; exact hdrop 1 Nat.one_pos
      next =>
        dsimp only at h
        split at h
        next => cases h
        next => cases h; exact hdrop _ ((T.kind order).extent.pos _)

/-- **The reference decoder** of a table. -/
def reference (O : Orders σ) (T : Table) : Decoder σ Byte Frame where
  step := referenceStep O T
  shortens := referenceStep_shortens

theorem reference_nil (O : Orders σ) (T : Table) (s : σ) : (reference O T).step s [] = none := by
  show referenceStep O T s [] = none
  rw [referenceStep]
  rfl

/-- The bytes left end in a self-sized frame that is not complete. -/
def Waits (T : Table) (rest : List Byte) : Prop :=
  2 ≤ rest.length ∧ ∃ order, T.find (getId (image rest)) = some order ∧
    (T.kind order).announced = 0 ∧ rest.length < (T.kind order).extent.size (image rest)

instance (T : Table) (rest : List Byte) : Decidable (Waits T rest) :=
  match h : T.find (getId (image rest)) with
  | none => .isFalse fun hw => by
    obtain ⟨-, order, he, -⟩ := hw
    rw [h] at he
    cases he
  | some order =>
    decidable_of_iff (2 ≤ rest.length ∧ (T.kind order).announced = 0 ∧
      rest.length < (T.kind order).extent.size (image rest)) (by simp [Waits, h])

/-! ## The parser and the reference decoder -/

/-- The loop stops where the decoder does, with the same frames, and reads inside of the
buffer. -/
structure Agrees (rest : List Byte) (d : Decoded σ Byte Frame) (p : Parsed σ) : Prop where
  state : p.state = d.state
  parsedBytes : p.parsedBytes ≤ rest.length
  rest : rest.drop p.parsedBytes = d.rest
  frames : p.dispatched.map Dispatch.frame = d.emitted
  reads : ∀ x ∈ p.dispatched, x.read ≤ x.available

theorem Agrees.after {rest : List Byte} {d : Decoded σ Byte Frame} {p : Parsed σ} {n : Nat}
    {e : List Frame} {ds : List Dispatch} (h : Agrees (rest.drop n) d p) (hn : n ≤ rest.length)
    (hds : ds.map Dispatch.frame = e) (hr : ∀ x ∈ ds, x.read ≤ x.available) :
    Agrees rest (d.after e) (p.after n ds) := by
  have hle := h.parsedBytes
  rw [List.length_drop] at hle
  refine ⟨h.state, ?_, ?_, ?_, ?_⟩
  · show n + p.parsedBytes ≤ rest.length
    omega
  · show rest.drop (n + p.parsedBytes) = d.rest
    rw [← List.drop_drop]
    exact h.rest
  · show (ds ++ p.dispatched).map Dispatch.frame = e ++ d.emitted
    rw [List.map_append, hds, h.frames]
  · intro x hx
    rcases List.mem_append.mp hx with hx | hx
    · exact hr x hx
    · exact h.reads x hx

/-- The loop takes the frames of the reference decoder, and then parses past the end if
that waits for a self-sized frame. -/
def Follows (O : Orders σ) (T : Table) (s : σ) (rest : List Byte) (p : Parsed σ) : Prop :=
  let d := (reference O T).decode s rest
  (¬ Waits T d.rest ∧ Agrees rest d p) ∨ (Waits T d.rest ∧ rest.length < p.parsedBytes)

section follows
variable {O : Orders σ} {T : Table}

theorem Follows.stop {s : σ} {rest : List Byte} (h : referenceStep O T s rest = none)
    (hw : ¬ Waits T rest) : Follows O T s rest { state := s } := by
  left
  rw [Decoder.decode_none (D := reference O T) h]
  exact ⟨hw, rfl, Nat.zero_le _, rfl, rfl, nofun⟩

theorem Follows.after {s t : σ} {rest : List Byte} {n : Nat} {e : List Frame} {ds : List Dispatch}
    {p : Parsed σ} (h : Follows O T t (rest.drop n) p)
    (hs : referenceStep O T s rest = some (e, t, rest.drop n)) (hn : n ≤ rest.length)
    (hds : ds.map Dispatch.frame = e) (hr : ∀ x ∈ ds, x.read ≤ x.available) :
    Follows O T s rest (p.after n ds) := by
  unfold Follows at h ⊢
  rw [Decoder.decode_some (D := reference O T) hs]
  rcases h with ⟨hw, ha⟩ | ⟨hw, hp⟩
  · exact .inl ⟨hw, ha.after hn hds hr⟩
  · refine .inr ⟨hw, ?_⟩
    rw [List.length_drop] at hp
    show rest.length < n + p.parsedBytes
    omega

end follows

section lawful
variable {O : Orders σ} {T : Table} {I : σ → Prop} (hO : Lawful O T I)
include hO

theorem handle_ofPrefix {s : σ} (hI : I s) (order : Nat) {d d' : Memory}
    (h : ∀ i < (T.kind order).extent.size d, d i = d' i) :
    handle O order d' s = handle O order d s := by
  rw [handle, handle, hO.ofPrefix hI order h]

/-- **Frames are stable**: more bytes do not change a step of the reference decoder. -/
theorem reference_stable : (reference O T).Stable I := by
  intro s l e t r hI h
  change referenceStep O T s l = _ at h
  show I t ∧ ∀ m, referenceStep O T s (l ++ m) = _
  unfold referenceStep at h ⊢
  split at h
  next => cases h
  next hlen =>
    have hlen' : ∀ m : List Byte, ¬ (l ++ m).length < 2 := fun m => by
      rw [List.length_append]
      omega
    have hid : ∀ m, getId (image (l ++ m)) = getId (image l) := fun m =>
      getId_append m _ _ (by omega)
    split at h
    next hfind =>
      cases h
      refine ⟨hI, fun m => ?_⟩
      rw [if_neg (hlen' m), hid, hfind, List.drop_append_of_le_length (by omega)]
    next order hfind =>
      split at h
      next hsmall =>
        cases h
        refine ⟨hI, fun m => ?_⟩
        rw [if_neg (hlen' m), hid, hfind]
        dsimp only
        rw [if_pos hsmall, List.drop_append_of_le_length (by omega)]
      next hsmall =>
        dsimp only at h
        split at h
        next => cases h
        next hsize =>
          cases h
          refine ⟨hO.keeps hI order _, fun m => ?_⟩
          have hle := Nat.not_lt.mp hsize
          have hsame : ∀ i < (T.kind order).extent.size (image l), image l i = image (l ++ m) i :=
            fun i hi => memory_append m _ _ (Nat.lt_of_lt_of_le hi hle)
          rw [if_neg (hlen' m), hid, hfind]
          dsimp only
          rw [if_neg hsmall, (T.kind order).extent.ofPrefix hsame,
            if_neg (by rw [List.length_append]; omega), handle_ofPrefix hO hI order hsame,
            List.drop_append_of_le_length hle, List.take_append_of_le_length hle]

theorem processData_eq {s : σ} (hI : I s) {order : Nat} {data : Memory}
    (h : T.find (getId data) = some order) :
    O.processData data (O.storeIpOrder order s) =
      O.process order (O.parse order data (O.storeIpOrder order s)) := by
  rw [Orders.processData, hO.findStored hI, h]

/-- **The loop** follows the reference decoder. -/
theorem loop_follows {s : σ} (hI : I s) (beyond : Memory) {fuel : Nat} {rest : List Byte}
    (hfuel : rest.length ≤ fuel) : Follows O T s rest (loop O beyond fuel rest s) := by
  induction fuel generalizing rest s with
  | zero =>
    have hshort : rest.length < 2 := by omega
    exact .stop (if_pos hshort) fun h => absurd h.1 (by omega)
  | succ fuel ih =>
    rw [loop]
    by_cases hshort : rest.length < 2
    · rw [if_pos hshort]
      exact .stop (if_pos hshort) fun h => absurd h.1 (by omega)
    rw [if_neg hshort]
    have hdrop : ∀ n, 0 < n → (rest.drop n).length ≤ fuel := fun n hn => by
      rw [List.length_drop]
      omega
    have hstep : referenceStep O T s rest = _ := if_neg hshort
    dsimp only
    rw [hO.find hI, getId_beyond beyond (fun _ => 0#8) (Nat.not_lt.mp hshort)]
    change Follows O T s rest (match T.find (getId (image rest)) with | none => _ | some order => _)
    cases hfind : T.find (getId (image rest)) with
    | none =>
      rw [hfind] at hstep
      exact (ih hI (hdrop 1 Nat.one_pos)).after hstep (by omega) rfl nofun
    | some order =>
      rw [hfind] at hstep
      dsimp only at hstep ⊢
      rw [hO.announced hI]
      by_cases hsmall : 0 < (T.kind order).announced ∧ (T.kind order).announced < 2
      · rw [if_pos hsmall] at hstep ⊢
        exact (ih hI (hdrop 1 Nat.one_pos)).after hstep (by omega) rfl nofun
      rw [if_neg hsmall] at hstep ⊢
      by_cases hwait : 0 < (T.kind order).announced ∧ rest.length < (T.kind order).announced
      · -- a frame of fixed size is not complete
        have hsize := Kind.size_eq_announced hwait.1 (image rest)
        rw [if_pos hwait]
        rw [hsize, if_pos hwait.2] at hstep
        refine .stop hstep ?_
        rintro ⟨-, order', hfind', hself, -⟩
        cases hfind.symm.trans hfind'
        omega
      rw [if_neg hwait]
      have hdata : T.find (getId (memory rest beyond)) = some order := by
        rw [getId_beyond beyond (fun _ => 0#8) (Nat.not_lt.mp hshort)]
        exact hfind
      rw [processData_eq hO hI hdata, hO.consumed hI]
      generalize hn : (T.kind order).extent.size (memory rest beyond) = n
      have hpos : 0 < n := hn ▸ (T.kind order).extent.pos _
      have hcomplete := @size_complete rest (T.kind order).extent beyond (fun _ => 0#8)
      rw [hn] at hcomplete
      by_cases hle : n ≤ rest.length
      · -- the frame is complete
        have hsame : ∀ i < (T.kind order).extent.size (memory rest beyond),
            memory rest beyond i = image rest i :=
          fun i hi => memory_beyond beyond _ (show i < rest.length by omega)
        have hsize : (T.kind order).extent.size (image rest) = n :=
          hn ▸ (T.kind order).extent.ofPrefix hsame
        rw [hsize, if_neg (Nat.not_lt.mpr hle), handle_ofPrefix hO hI order hsame] at hstep
        refine (ih (hO.keeps hI order _) (hdrop n hpos)).after hstep hle rfl ?_
        intro x hx
        rw [List.mem_singleton.mp hx]
        exact Nat.le_trans (hO.reads hI order _) (hn ▸ hle)
      · -- a self-sized frame is not complete: `get_size` goes past the end
        have hlong : rest.length < (T.kind order).extent.size (image rest) :=
          Nat.not_le.mp fun h => hle (hcomplete.mpr h)
        rw [if_pos hlong] at hstep
        right
        rw [Decoder.decode_none (D := reference O T) hstep]
        refine ⟨⟨Nat.not_lt.mp hshort, order, hfind, ?_, hlong⟩, ?_⟩
        · by_contra hne
          have hannounced := Nat.pos_of_ne_zero hne
          rw [Kind.size_eq_announced hannounced] at hlong
          exact hwait ⟨hannounced, hlong⟩
        · exact Nat.lt_of_lt_of_le (Nat.not_le.mp hle) (Nat.le_add_right n _)

theorem process_follows {s : σ} (hI : I s) (beyond : Memory) (buffer : List Byte) :
    Follows O T s buffer (process O beyond buffer s).1 := by
  cases buffer with
  | nil => exact .stop (reference_nil O T s) fun h => absurd h.1 (by decide)
  | cons => exact loop_follows hO hI beyond (Nat.le_refl _)

end lawful

theorem process_rest (O : Orders σ) (beyond : Memory) (buffer : List Byte) (s : σ) :
    (process O beyond buffer s).2 = trim (buffer.drop (process O beyond buffer s).1.parsedBytes) := by
  cases buffer <;> rfl

end StLib.Communication.OrderTable
