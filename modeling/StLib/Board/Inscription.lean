import StLib.Board.Model

/-! # Who owns the entries of a board

Every entry is appended with the address of the object that inscribes it: a request object
itself in its own domain, or a member of one. -/
namespace StLib.Board.Inscription

open Domains
open Model

/-! ## What an inscription adds -/

/-- `m` appends entries with owners in `owns` and changes nothing else. -/
def Inscribes {α : Type} (owns : Domain → Address → Prop) (m : StateM Ctx α) : Prop :=
  ∀ ctx d, ∃ added, (m ctx).2 d = ctx d ++ added ∧ ∀ x ∈ added, owns d x.2

/-- `m` leaves an entry of `owner` in the domain. -/
def Registers {α : Type} (d : Domain) (owner : Address) (m : StateM Ctx α) : Prop :=
  ∀ ctx, owner ∈ (m ctx).2.owners d

/-- A member of the object at `this`. -/
def MemberOf (this a : Address) : Prop :=
  ∃ n rest, a.object = this.object ∧ a.member = this.member ++ n :: rest

/-- The object at `this` or a member of it. -/
def Within (this a : Address) : Prop := a = this ∨ MemberOf this a

/-- The domain in which a request has entries of its own; a DMA request without a stream has none. -/
def ownDomain : Device → Option Domain
  | .dma _ [] => none
  | dev => dev.domain

/-- The domains of the requests that are members of others. -/
def memberDomains : List Domain := [.mpu, .gpio, .dma, .digitalOutput, .digitalInput]

/-- The owners of what a request at `this` inscribes. -/
def Owns (dev : Device) (this : Address) (d : Domain) (a : Address) : Prop :=
  (a = this ∧ ownDomain dev = some d) ∨ (MemberOf this a ∧ d ∈ memberDomains)

/-- The owners of what a member at `this` inscribes. -/
def MemberOwns (this : Address) (d : Domain) (a : Address) : Prop := Within this a ∧ d ∈ memberDomains

theorem MemberOf.of_sub {this a : Address} {n : Nat} (h : Within (this.sub n) a) : MemberOf this a := by
  rcases h with rfl | ⟨k, rest, hobject, hmember⟩
  · exact ⟨n, [], rfl, rfl⟩
  · exact ⟨n, k :: rest, hobject, by rw [hmember, Address.sub, List.append_assoc, List.singleton_append]⟩

theorem MemberOwns.of_sub {this a : Address} {n : Nat} {d : Domain} (h : MemberOwns (this.sub n) d a) :
    MemberOwns this d a :=
  ⟨.inr (MemberOf.of_sub h.1), h.2⟩

section Steps

variable {α β : Type} {owns owns' : Domain → Address → Prop} {m : StateM Ctx α} {f : α → StateM Ctx β}

theorem Inscribes.ofPure (x : α) : Inscribes owns (pure x) :=
  fun _ _ => ⟨[], (List.append_nil _).symm, nofun⟩

theorem Inscribes.bind (hm : Inscribes owns m) (hf : ∀ x, Inscribes owns (f x)) :
    Inscribes owns (m >>= f) := by
  intro ctx d
  obtain ⟨first, hfirst, hown⟩ := hm ctx d
  obtain ⟨second, hsecond, hown'⟩ := hf (m ctx).1 (m ctx).2 d
  refine ⟨first ++ second, ?_, fun x hx => ?_⟩
  · rw [← List.append_assoc, ← hfirst, ← hsecond]
    rfl
  · rcases List.mem_append.mp hx with hx | hx
    · exact hown x hx
    · exact hown' x hx

theorem Inscribes.mono (hm : Inscribes owns m) (h : ∀ d a, owns d a → owns' d a) : Inscribes owns' m := by
  intro ctx d
  obtain ⟨added, hadded, hown⟩ := hm ctx d
  exact ⟨added, hadded, fun x hx => h d x.2 (hown x hx)⟩

theorem Inscribes.ofAdd {d : Domain} {e : Entry d} {owner : Address} (h : owns d owner) :
    Inscribes owns (add d e owner) := by
  intro ctx d'
  by_cases heq : d' = d
  · subst heq
    exact ⟨[(e, owner)], Function.update_self .., fun x hx => by rwa [List.mem_singleton.mp hx]⟩
  · exact ⟨[], by rw [List.append_nil]; exact Function.update_of_ne heq .., nofun⟩

/-- An entry stays. -/
theorem Inscribes.keeps (hm : Inscribes owns m) {ctx : Ctx} {d : Domain} {owner : Address}
    (h : owner ∈ ctx.owners d) : owner ∈ (m ctx).2.owners d := by
  obtain ⟨added, hadded, -⟩ := hm ctx d
  rw [Ctx.owners, hadded, List.map_append]
  exact List.mem_append_left _ h

theorem Registers.ofAdd {d : Domain} {e : Entry d} {owner : Address} : Registers d owner (add d e owner) := by
  intro ctx
  change owner ∈ List.map Prod.snd (Function.update ctx d (ctx d ++ [(e, owner)]) d)
  rw [Function.update_self, List.map_append]
  exact List.mem_append_right _ (List.mem_singleton.mpr rfl)

theorem Registers.first {d : Domain} {owner : Address} (hm : Registers d owner m)
    (hf : ∀ x, Inscribes owns (f x)) : Registers d owner (m >>= f) :=
  fun ctx => (hf _).keeps (hm ctx)

/-- The result is dropped. -/
theorem Registers.discard {d : Domain} {owner : Address} (hm : Registers d owner m) :
    Registers d owner (m >>= fun _ => Pure.pure ()) :=
  hm

theorem Registers.last {d : Domain} {owner : Address} (hf : ∀ x, Registers d owner (f x)) :
    Registers d owner (m >>= f) :=
  fun ctx => hf _ (m ctx).2

end Steps

/-! ## Members -/

section Members

variable {this : Address}

theorem inscribeGpio_members (e : Gpio.Entry) : Inscribes (MemberOwns this) (inscribeGpio e this) :=
  .ofAdd ⟨.inl rfl, by decide⟩

theorem inscribeBuffer_members (e : Mpu.Entry) : Inscribes (MemberOwns this) (inscribeBuffer e this) :=
  .ofAdd ⟨.inl rfl, by decide⟩

theorem inscribeDma_members (p : Dma.Peripheral) (streams : List Dma.Stream) (id : Nat) :
    Inscribes (MemberOwns this) (inscribeDma p this id streams) := by
  induction streams generalizing id with
  | nil => exact .ofPure _
  | cons stream rest ih =>
    exact .bind (.ofAdd ⟨.inl rfl, by decide⟩) fun _ => .bind (ih _) fun _ => .ofPure _

theorem inscribeDigitalOutput_members (e : Gpio.Entry) :
    Inscribes (MemberOwns this) (inscribeDigitalOutput e this) :=
  .bind ((inscribeGpio_members e).mono fun _ _ => .of_sub) fun _ => .ofAdd ⟨.inl rfl, by decide⟩

theorem inscribeDigitalInput_members (e : Gpio.Entry) :
    Inscribes (MemberOwns this) (inscribeDigitalInput e this) :=
  .bind ((inscribeGpio_members e).mono fun _ _ => .of_sub) fun _ => .ofAdd ⟨.inl rfl, by decide⟩

theorem inscribeOption_members {inscribe : Gpio.Entry → Address → StateM Ctx Nat}
    (h : ∀ e, Inscribes (MemberOwns this) (inscribe e this)) (e : Option Gpio.Entry) :
    Inscribes (MemberOwns this) (inscribeOption inscribe this e) := by
  cases e with
  | none => exact .ofPure _
  | some e => exact .bind (h e) fun _ => .ofPure _

theorem inscribeGpios_members (gpios : List Gpio.Entry) (n : Nat) :
    Inscribes (fun d a => MemberOf this a ∧ d ∈ memberDomains) (inscribeGpios this n gpios) := by
  induction gpios generalizing n with
  | nil => exact .ofPure _
  | cons e rest ih =>
    exact .bind ((inscribeGpio_members e).mono fun _ _ h => ⟨.of_sub h.1, h.2⟩) fun _ => ih _

end Members

/-! ## Request objects -/

section Devices

variable {dev : Device} {this : Address} {α β : Type} {m : StateM Ctx α}

/-- A member of a request inscribes for the request. -/
theorem Inscribes.ofMember {n : Nat} (h : Inscribes (MemberOwns (this.sub n)) m) :
    Inscribes (Owns dev this) m :=
  h.mono fun _ _ hown => .inr ⟨.of_sub hown.1, hown.2⟩

theorem Inscribes.ofGpios {n : Nat} {gpios : List Gpio.Entry} {a : Address} (h : Within this a) :
    Inscribes (Owns dev this) (inscribeGpios a n gpios) := by
  refine (inscribeGpios_members gpios n).mono fun _ _ hown => .inr ⟨?_, hown.2⟩
  obtain ⟨k, rest, hobject, hmember⟩ := hown.1
  rcases h with rfl | ⟨k', rest', hobject', hmember'⟩
  · exact ⟨k, rest, hobject, hmember⟩
  · exact ⟨k', rest' ++ k :: rest, hobject.trans hobject', by rw [hmember, hmember']; simp⟩

/-- The request itself, in its domain. -/
theorem Inscribes.ofThis {d : Domain} {e : Entry d} (h : ownDomain dev = some d) :
    Inscribes (Owns dev this) (add d e this >>= fun _ => pure ()) :=
  .bind (.ofAdd (.inl ⟨rfl, h⟩)) fun _ => .ofPure _

theorem Registers.ofThis {d : Domain} {e : Entry d} : Registers d this (add d e this >>= fun _ => pure ()) :=
  Registers.ofAdd.discard

theorem inscribeDma_own {p : Dma.Peripheral} {streams : List Dma.Stream} (id : Nat)
    (h : ownDomain dev = some .dma) : Inscribes (Owns dev this) (inscribeDma p this id streams) := by
  induction streams generalizing id with
  | nil => exact .ofPure _
  | cons stream rest ih => exact .bind (.ofAdd (.inl ⟨rfl, h⟩)) fun _ => .bind (ih _) fun _ => .ofPure _

/-- A request appends entries of its own and of its members. -/
theorem inscribe_owns (dev : Device) (this : Address) : Inscribes (Owns dev this) (dev.inscribe this) := by
  have hgpio : ∀ e n, Inscribes (Owns dev this) (inscribeGpio e (this.sub n)) :=
    fun e _ => .ofMember (inscribeGpio_members e)
  have hbuffer : ∀ e n, Inscribes (Owns dev this) (inscribeBuffer e (this.sub n)) :=
    fun e _ => .ofMember (inscribeBuffer_members e)
  have hoption : ∀ e n, Inscribes (Owns dev this) (inscribeOption inscribeGpio (this.sub n) e) :=
    fun e _ => .ofMember (inscribeOption_members inscribeGpio_members e)
  have hinput : ∀ e n, Inscribes (Owns dev this) (inscribeOption inscribeDigitalInput (this.sub n) e) :=
    fun e _ => .ofMember (inscribeOption_members inscribeDigitalInput_members e)
  cases dev with
  | buffer e => exact .ofThis rfl
  | gpio e => exact .ofThis rfl
  | timer gpios e => exact .bind (.ofGpios (.inl rfl)) fun _ => .ofThis rfl
  | dma p streams =>
    cases streams with
    | nil => exact .ofPure _
    | cons stream rest => exact .bind (inscribeDma_own 0 rfl) fun _ => .ofPure _
  | spi p rxStream txStream sck miso mosi nss =>
    exact .bind (.ofMember (inscribeDma_members _ _ _)) fun _ => .bind (hoption nss 3) fun _ =>
      .bind (hgpio sck 0) fun _ => .bind (hgpio miso 1) fun _ => .bind (hgpio mosi 2) fun _ => .ofThis rfl
  | digitalOutput e => exact .bind (.bind (hgpio e 0) fun _ => .ofAdd (.inl ⟨rfl, rfl⟩)) fun _ => .ofPure _
  | digitalInput e => exact .bind (.bind (hgpio e 0) fun _ => .ofAdd (.inl ⟨rfl, rfl⟩)) fun _ => .ofPure _
  | mdmaPacket packetReq nodesReq =>
    exact .bind (hbuffer packetReq 0) fun _ => .bind (hbuffer nodesReq 1) fun _ => .ofThis rfl
  | sdCard p buffer0 buffer1 cd wp cmd ck d0 d1 d2 d3 =>
    exact .bind (hbuffer buffer0 0) fun _ => .bind (hbuffer buffer1 1) fun _ =>
      .bind (hinput cd 2) fun _ => .bind (hinput wp 3) fun _ => .bind (hgpio cmd 4) fun _ =>
      .bind (hgpio ck 5) fun _ => .bind (hgpio d0 6) fun _ => .bind (hgpio d1 7) fun _ =>
      .bind (hgpio d2 8) fun _ => .bind (hgpio d3 9) fun _ => .ofThis rfl
  | ethernet rmiiGpios rxerGpio phyReset =>
    exact .bind (.ofGpios (.inr ⟨0, [], rfl, rfl⟩)) fun _ => .bind (hoption rxerGpio 2) fun _ =>
      .bind (.ofMember (inscribeDigitalOutput_members phyReset)) fun _ => .ofThis rfl
  | adc e p channel => exact .bind (hgpio e 0) fun _ => .ofThis rfl
  | exti e => exact .bind (hgpio e 0) fun _ => .ofThis rfl
  | dfsdmChannel e channel filter enable => exact .bind (hgpio e 0) fun _ => .ofThis rfl
  | dfsdmClk e clkDivider => exact .bind (hgpio e 0) fun _ => .ofThis rfl
  | protection => exact .ofPure _

/-- A request is registered in its domain. -/
theorem inscribe_registers {d : Domain} (dev : Device) (this : Address) (hd : ownDomain dev = some d) :
    Registers d this (dev.inscribe this) := by
  cases dev with
  | dma p streams =>
    cases streams with
    | nil => cases hd
    | cons stream rest =>
      cases hd
      have hrest : Inscribes (MemberOwns this) (inscribeDma p this 1 rest) := inscribeDma_members p rest 1
      have hfirst : Registers .dma this (inscribeDma p this 0 (stream :: rest)) :=
        .first .ofAdd fun _ => .bind hrest fun _ => .ofPure _
      exact hfirst.discard
  | protection => cases hd
  | buffer e => cases hd; exact .ofThis
  | gpio e => cases hd; exact .ofThis
  | timer gpios e => cases hd; exact .last fun _ => .ofThis
  | spi p rxStream txStream sck miso mosi nss =>
    cases hd
    exact .last fun _ => .last fun _ => .last fun _ => .last fun _ => .last fun _ => .ofThis
  | digitalOutput e =>
    cases hd
    have hlast : Registers .digitalOutput this (inscribeDigitalOutput e this) := .last fun _ => .ofAdd
    exact hlast.discard
  | digitalInput e =>
    cases hd
    have hlast : Registers .digitalInput this (inscribeDigitalInput e this) := .last fun _ => .ofAdd
    exact hlast.discard
  | mdmaPacket packetReq nodesReq => cases hd; exact .last fun _ => .last fun _ => .ofThis
  | sdCard p buffer0 buffer1 cd wp cmd ck d0 d1 d2 d3 =>
    cases hd
    exact .last fun _ => .last fun _ => .last fun _ => .last fun _ => .last fun _ => .last fun _ =>
      .last fun _ => .last fun _ => .last fun _ => .last fun _ => .ofThis
  | ethernet rmiiGpios rxerGpio phyReset =>
    cases hd
    exact .last fun _ => .last fun _ => .last fun _ => .ofThis
  | adc e p channel => cases hd; exact .last fun _ => .ofThis
  | exti e => cases hd; exact .last fun _ => .ofThis
  | dfsdmChannel e channel filter enable => cases hd; exact .last fun _ => .ofThis
  | dfsdmClk e clkDivider => cases hd; exact .last fun _ => .ofThis

end Devices

/-! ## Boards -/

section Boards

variable {objects : Nat → Device} {devs : List Nat} {ctx : Ctx} {d : Domain}

theorem inscribeAll_owns (objects : Nat → Device) (devs : List Nat) :
    Inscribes (fun d a => ∃ dev ∈ devs, Owns (objects dev) { object := dev } d a)
      (inscribeAll objects devs) := by
  induction devs with
  | nil => exact .ofPure _
  | cons dev rest ih =>
    refine .bind ((inscribe_owns (objects dev) _).mono fun _ _ h => ⟨dev, List.mem_cons_self, h⟩)
      fun _ => ih.mono fun _ _ ⟨other, hmem, h⟩ => ⟨other, List.mem_cons_of_mem _ hmem, h⟩

theorem inscribeAll_registers {dev : Nat} (hmem : dev ∈ devs) (hd : ownDomain (objects dev) = some d) :
    Registers d { object := dev } (inscribeAll objects devs) := by
  induction devs with
  | nil => cases hmem
  | cons first rest ih =>
    rcases List.mem_cons.mp hmem with rfl | hrest
    · exact .first (inscribe_registers _ _ hd) fun _ => inscribeAll_owns objects rest
    · exact .last fun _ => ih hrest

theorem buildCtx_eq (h : buildCtx objects devs = .ok ctx) : ctx = (inscribeAll objects devs Ctx.empty).2 := by
  simp only [buildCtx] at h
  split at h
  · exact (Except.ok.inj h).symm
  · cases h

/-- Every entry of a board belongs to a request of it or to a member of one. -/
theorem owner_cases (h : buildCtx objects devs = .ok ctx) {a : Address} (ha : a ∈ ctx.owners d) :
    ∃ dev ∈ devs, Owns (objects dev) { object := dev } d a := by
  obtain ⟨added, hadded, hown⟩ := inscribeAll_owns objects devs Ctx.empty d
  rw [buildCtx_eq h, Ctx.owners, hadded] at ha
  obtain ⟨x, hx, rfl⟩ := List.mem_map.mp ha
  exact hown x hx

/-- A request of the board owns the entries that stand under its address, in its domain. -/
theorem owner_own (h : buildCtx objects devs = .ok ctx) {dev : Nat}
    (ha : { object := dev } ∈ ctx.owners d) : dev ∈ devs ∧ ownDomain (objects dev) = some d := by
  obtain ⟨other, hmem, ⟨heq, hd⟩ | ⟨⟨n, rest, -, hmember⟩, -⟩⟩ := owner_cases h ha
  · cases heq
    exact ⟨hmem, hd⟩
  · cases hmember

/-- A domain that no member belongs to has the requests of the board as owners. -/
theorem owner_request (h : buildCtx objects devs = .ok ctx) (hd : d ∉ memberDomains) {a : Address}
    (ha : a ∈ ctx.owners d) : ∃ dev ∈ devs, a = { object := dev } ∧ ownDomain (objects dev) = some d := by
  obtain ⟨dev, hmem, ⟨rfl, hdomain⟩ | ⟨-, hmember⟩⟩ := owner_cases h ha
  · exact ⟨dev, hmem, rfl, hdomain⟩
  · exact absurd hmember hd

theorem registered (h : buildCtx objects devs = .ok ctx) {dev : Nat} (hmem : dev ∈ devs)
    (hd : ownDomain (objects dev) = some d) : { object := dev } ∈ ctx.owners d := by
  rw [buildCtx_eq h]
  exact inscribeAll_registers hmem hd Ctx.empty

end Boards

end StLib.Board.Inscription
