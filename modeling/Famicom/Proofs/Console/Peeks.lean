import Famicom.Bench.ScriptedProcessor
import Famicom.Proofs.Console.Calls
import Famicom.Storage.Disk

/-!
# Peeks

A peek is a read that is to leave every device as it is. Of the devices on the bus only the picture
unit could break this, because the console does not know how it answers; if it does not, a peek gives
what an ordinary read would and changes nothing. So peeks can be put anywhere, among the calls of a
user and into the programs of a processor, and nothing else comes out differently.

## Main definitions

* `PictureUnit.PeeksQuietly` — the picture unit keeps still under peeks
* `BusProgram.Peeked`, `Processor.Peeked` — programs and processors into which peeks are put
* `Machine.callOrPeek` — a call, or a peek that is put between calls

## Main results

* `Devices.read_peek` — a peek gives what a read would, and changes nothing
* `BusProgram.Peeked.run_eq` — peeks in a program change nothing
* `Machine.call_eq_of_peeked` — nor do those in a processor
* `Machine.peeks_are_transparent` — nor do those in a run
-/

namespace Famicom

variable {κ π δ : Type}

/-- A peek at a register gives what a read would, and changes neither the unit nor the cartridge. -/
def PictureUnit.PeeksQuietly (π : Type) [PictureUnit π] : Prop :=
  ∀ (picture : π) (register : UInt16), register < 8 → ∀ c,
    (PictureUnit.readRegister picture register true).run c =
      ((((PictureUnit.readRegister picture register false).run c).1.1, picture), c)

/-! ### Accesses -/

theorem Controller.read_peek (c : Controller) (strobe : Bool) :
    c.read strobe true = ((c.read strobe false).1, c) := by
  cases strobe <;> rfl

theorem Controllers.read_peek (c : Controllers) (player : Player) :
    c.read player true = ((c.read player false).1, c) := by
  simp only [read, Controller.read_peek]
  cases player <;> rfl

namespace Devices

variable [PictureUnit π] (d : Devices π δ)

omit [PictureUnit π] in
theorem readController_peek (player : Player) :
    d.readController player true = ((d.readController player false).1, d) := by
  simp only [readController, Controllers.read_peek]

theorem readPicture_peek (quiet : PictureUnit.PeeksQuietly π) {register : UInt16}
    (small : register < 8) :
    d.readPicture register true = ((d.readPicture register false).1, d) := by
  obtain ⟨ram, picture, sound, cartridge, controllers, dma, stall, step, log, store⟩ := d
  cases cartridge with
  | none => rfl
  | some c => simp only [readPicture, quiet picture register small c]

theorem readConsole_peek (quiet : PictureUnit.PeeksQuietly π) (address : UInt16) :
    d.readConsole address true = ((d.readConsole address false).1, d) := by
  have register : address &&& 0x0007 < 8 := by
    rw [UInt16.lt_iff_toNat_lt, UInt16.toNat_and]
    exact Nat.lt_of_le_of_lt Nat.and_le_right (by decide)
  unfold readConsole
  split
  · rfl
  · split
    · exact d.readPicture_peek quiet register
    · split
      · rfl
      · exact d.readController_peek .first
      · exact d.readController_peek .second
      · rfl

/-- A peek gives what a read would, and changes nothing. -/
theorem read_peek (quiet : PictureUnit.PeeksQuietly π) (address : UInt16) :
    d.read address true = ((d.read address false).1, d) := by
  unfold read
  split
  · rfl
  · exact d.readConsole_peek quiet address

end Devices

/-! ### Programs -/

/-- Peeks are put into a program. What they give may only be passed over. -/
inductive BusProgram.Peeked {α : Type} : BusProgram α → BusProgram α → Prop
  | done (a : α) : Peeked (.done a) (.done a)
  | read (address : UInt16) (peek : Bool) {next next' : UInt8 → BusProgram α}
    (rest : ∀ byte, Peeked (next byte) (next' byte)) :
    Peeked (.read address peek next) (.read address peek next')
  | write (address : UInt16) (data : UInt8) {next next' : BusProgram α} (rest : Peeked next next') :
    Peeked (.write address data next) (.write address data next')
  | peek (address : UInt16) {program : BusProgram α} {next : UInt8 → BusProgram α}
    (rest : ∀ byte, Peeked program (next byte)) : Peeked program (.read address true next)

/-- Peeks in a program change nothing. -/
theorem BusProgram.Peeked.run_eq {α : Type} [PictureUnit π] [FileStore δ]
    (quiet : PictureUnit.PeeksQuietly π) {program program' : BusProgram α}
    (h : program.Peeked program') (d : Devices π δ) : program'.run d = program.run d := by
  induction h generalizing d with
  | done a => rfl
  | read address peek rest ih =>
    rw [run, run]
    exact ih _ _
  | write address data rest ih =>
    rw [run, run]
    exact ih _
  | peek address rest ih =>
    -- Whatever byte the peek gives, the rest of the program is the same one with peeks put in.
    rw [run, d.read_peek quiet address]
    exact ih _ d

/-- Peeks are put into the programs of a processor. -/
structure Processor.Peeked (P P' : Processor κ) : Prop where
  clock : ∀ k, (P.clock k).Peeked (P'.clock k)
  reset : ∀ k, (P.reset k).Peeked (P'.reset k)
  nmi : ∀ k, (P.nmi k).Peeked (P'.nmi k)
  irq : ∀ k, (P.irq k).Peeked (P'.irq k)
  instructions : ∀ k, P'.instructions k = P.instructions k

namespace Machine

variable [PictureUnit π] [FileStore δ]

theorem runProcessor_eq_of_peeked (quiet : PictureUnit.PeeksQuietly π)
    {program program' : BusProgram κ} (h : program.Peeked program') (m : Machine κ π δ) :
    m.runProcessor program' = m.runProcessor program := by
  rw [runProcessor, runProcessor, h.run_eq quiet]

section Peeked

variable {P P' : Processor κ} (quiet : PictureUnit.PeeksQuietly π) (h : P.Peeked P')

include quiet h

theorem useSlot_eq_of_peeked (m : Machine κ π δ) :
    @useSlot κ π δ P' _ _ m = @useSlot κ π δ P _ _ m := by
  unfold useSlot clockProcessor
  simp only [h.instructions, runProcessor_eq_of_peeked quiet (h.clock _)]

theorem pollNmi_eq_of_peeked (m : Machine κ π δ) :
    @pollNmi κ π δ P' _ _ m = @pollNmi κ π δ P _ _ m := by
  unfold pollNmi
  simp only [runProcessor_eq_of_peeked quiet (h.nmi _)]

theorem pollCartridgeIrq_eq_of_peeked (m : Machine κ π δ) :
    @pollCartridgeIrq κ π δ P' _ _ m = @pollCartridgeIrq κ π δ P _ _ m := by
  unfold pollCartridgeIrq
  simp only [runProcessor_eq_of_peeked quiet (h.irq _)]

theorem pollSoundIrq_eq_of_peeked (m : Machine κ π δ) :
    @pollSoundIrq κ π δ P' _ _ m = @pollSoundIrq κ π δ P _ _ m := by
  unfold pollSoundIrq
  simp only [runProcessor_eq_of_peeked quiet (h.irq _)]

theorem clock_eq_of_peeked (m : Machine κ π δ) :
    @clock κ π δ P' _ _ m = @clock κ π δ P _ _ m := by
  unfold clock
  simp only [useSlot_eq_of_peeked quiet h, pollNmi_eq_of_peeked quiet h,
    pollCartridgeIrq_eq_of_peeked quiet h, pollSoundIrq_eq_of_peeked quiet h]

theorem reset_eq_of_peeked (m : Machine κ π δ) :
    @reset κ π δ P' _ _ m = @reset κ π δ P _ _ m := by
  unfold reset
  simp only [runProcessor_eq_of_peeked quiet (h.reset _)]

theorem apply_eq_of_peeked (m : Machine κ π δ) (op : Operation κ π δ) :
    @apply κ π δ P' _ _ m op = @apply κ π δ P _ _ m op := by
  cases op with
  | clock =>
    unfold apply
    rw [clock_eq_of_peeked quiet h]
  | reset => exact reset_eq_of_peeked quiet h m
  | load path =>
    unfold apply load
    simp only [reset_eq_of_peeked quiet h]
  | _ => rfl

theorem nextSampleWithin_eq_of_peeked (fuel : Nat) (m : Machine κ π δ) :
    @nextSampleWithin κ π δ P' _ _ fuel m = @nextSampleWithin κ π δ P _ _ fuel m := by
  induction fuel generalizing m with
  | zero => rfl
  | succ fuel ih =>
    unfold nextSampleWithin
    simp only [clock_eq_of_peeked quiet h, ih]

theorem runFrameWithin_eq_of_peeked (fuel : Nat) (m : Machine κ π δ) :
    @runFrameWithin κ π δ P' _ _ fuel m = @runFrameWithin κ π δ P _ _ fuel m := by
  induction fuel generalizing m with
  | zero => rfl
  | succ fuel ih =>
    unfold runFrameWithin
    simp only [clock_eq_of_peeked quiet h, ih]

/-- Peeks in a processor change nothing. -/
theorem call_eq_of_peeked : @call κ π δ P' _ _ = @call κ π δ P _ _ := by
  funext m c
  cases c with
  | once op => exact apply_eq_of_peeked quiet h m op
  | nextSample =>
    unfold call nextSample
    simp only [nextSampleWithin_eq_of_peeked quiet h]
  | runFrame =>
    unfold call runFrame
    simp only [runFrameWithin_eq_of_peeked quiet h]

end Peeked

/-! ### Runs -/

variable [P : Processor κ]

/-- A call, or a peek that is put between calls. -/
def callOrPeek (m : Machine κ π δ) : Call κ π δ ⊕ UInt16 → Except Fault (Machine κ π δ)
  | .inl c => m.call c
  | .inr address => m.call (.once (.read address true))

/-- What calls tell, without the peeks between them. -/
def tellsOfCall {ω : Type} (tells : Machine κ π δ → Call κ π δ → List ω) (m : Machine κ π δ) :
    Call κ π δ ⊕ UInt16 → List ω
  | .inl c => tells m c
  | .inr _ => []

omit [FileStore δ] P in
theorem read_peek (quiet : PictureUnit.PeeksQuietly π) (m : Machine κ π δ) (address : UInt16) :
    m.read address true = ((m.read address false).1, m) := by
  simp only [read, m.devices.read_peek quiet address]

theorem call_peek (quiet : PictureUnit.PeeksQuietly π) (m : Machine κ π δ) (address : UInt16) :
    m.call (.once (.read address true)) = .ok m := by
  rw [call, apply, m.read_peek quiet address]

theorem foldlM_callOrPeek (quiet : PictureUnit.PeeksQuietly π) (m : Machine κ π δ)
    (steps : List (Call κ π δ ⊕ UInt16)) :
    steps.foldlM callOrPeek m = (steps.filterMap Sum.getLeft?).foldlM call m := by
  induction steps generalizing m with
  | nil => rfl
  | cons step steps ih =>
    cases step with
    | inl c =>
      rw [List.filterMap_cons, Sum.getLeft?_inl, List.foldlM_cons, List.foldlM_cons]
      exact congrArg (m.call c >>= ·) (funext ih)
    | inr address =>
      -- The peek leaves the console where it was.
      rw [List.filterMap_cons, Sum.getLeft?_inr, List.foldlM_cons, callOrPeek,
        m.call_peek quiet address]
      exact ih m

theorem runLog_callOrPeek (quiet : PictureUnit.PeeksQuietly π) {ω : Type}
    (tells : Machine κ π δ → Call κ π δ → List ω) (m : Machine κ π δ)
    (steps : List (Call κ π δ ⊕ UInt16)) :
    runLog callOrPeek (tellsOfCall tells) steps m =
      runLog call tells (steps.filterMap Sum.getLeft?) m := by
  induction steps generalizing m with
  | nil => rfl
  | cons step steps ih =>
    cases step with
    | inl c =>
      rw [List.filterMap_cons, Sum.getLeft?_inl, runLog, runLog, callOrPeek, tellsOfCall]
      cases m.call c with
      | error fault => rfl
      | ok m' => exact congrArg (tells m c ++ ·) (ih m')
    | inr address =>
      rw [List.filterMap_cons, Sum.getLeft?_inr,
        runLog_cons_of_ok steps (show m.callOrPeek (.inr address) = .ok m from
          m.call_peek quiet address)]
      exact ih m

/-- **Peeks are transparent.** If the picture unit keeps still under them, a peek at any address
gives what an ordinary read would give and leaves the whole console as it is, in every state and
with or without a cartridge. So peeks between the calls of a run change neither where the run comes
nor what any of its calls tells, and the console of a processor into whose programs peeks are put
does in every call what it did without. -/
theorem peeks_are_transparent (quiet : PictureUnit.PeeksQuietly π) :
    (∀ (m : Machine κ π δ) (address : UInt16),
      m.read address true = ((m.read address false).1, m)) ∧
    (∀ (m : Machine κ π δ) (steps : List (Call κ π δ ⊕ UInt16)),
      steps.foldlM callOrPeek m = (steps.filterMap Sum.getLeft?).foldlM call m ∧
      ∀ {ω : Type} (tells : Machine κ π δ → Call κ π δ → List ω),
        runLog callOrPeek (tellsOfCall tells) steps m =
          runLog call tells (steps.filterMap Sum.getLeft?) m) ∧
    ∀ P' : Processor κ, P.Peeked P' → @call κ π δ P' _ _ = @call κ π δ P _ _ :=
  ⟨read_peek quiet,
    fun m steps => ⟨foldlM_callOrPeek quiet m steps, fun tells =>
      runLog_callOrPeek quiet tells m steps⟩,
    fun _ peeked => call_eq_of_peeked quiet peeked⟩

end Machine

/-! ### A unit that keeps still under peeks -/

/-- A picture unit with a status that a read clears, unless it is a peek. -/
structure StatusPicture where
  status : UInt8 := 0x80

instance : PictureUnit StatusPicture where
  clock p := .done p
  readRegister p _ peek := .done (p.status, if peek then p else { status := 0 })
  writeRegister p _ _ := .done p
  connect p _ := p
  reset p := p
  pollNmi p := (false, p)
  frameComplete _ := false
  beginFrame p := p

theorem StatusPicture.peeksQuietly : PictureUnit.PeeksQuietly StatusPicture :=
  fun _ _ _ _ => rfl

/-- A processor that peeks at the status before each clock. -/
@[reducible]
def peekingProcessor (κ : Type) [P : Processor κ] : Processor κ where
  clock k := .read 0x2002 true fun _ => P.clock k
  reset := P.reset
  nmi := P.nmi
  irq := P.irq
  instructions := P.instructions

theorem BusProgram.Peeked.refl {α : Type} (program : BusProgram α) : program.Peeked program := by
  induction program with
  | done a => exact .done a
  | read address peek next ih => exact .read address peek ih
  | write address data next ih => exact .write address data ih

theorem peekingProcessor_peeked (κ : Type) [P : Processor κ] : P.Peeked (peekingProcessor κ) where
  clock _ := .peek 0x2002 fun _ => .refl _
  reset _ := .refl _
  nmi _ := .refl _
  irq _ := .refl _
  instructions _ := rfl

/-- A status that reads would clear is peeked at before it is read, by the user and by the
processor. -/
theorem Machine.peeks_are_transparent_of_status :
    let cartridge : Cartridge := {
      header := ⟨1, 1, 0, 0, 0, 0, 0, .replicate 5 0⟩
      container := .ines
      prg := .zeros 16384 (by decide)
      chr := .zeros 8192 (by decide)
      board := .nrom { banks := ⟨1, 1, by decide⟩ } }
    ∃ m : Machine Bench.ScriptedProcessor StatusPicture Disk,
      m.devices.cartridge = some cartridge ∧
      (m.read 0x2002 false).1 = 0x80 ∧ ((m.read 0x2002 false).2.read 0x2002 false).1 = 0 ∧
      m.read 0x2002 true = (0x80, m) ∧
      [.inr 0x2002, .inl (.once (.read 0x2002 false)), .inr 0x2002].foldlM callOrPeek m =
        [.once (.read 0x2002 false)].foldlM call m ∧
      @call _ _ _ (peekingProcessor _) _ _ m (.once .clock) = m.call (.once .clock) := by
  intro cartridge
  obtain ⟨sound, -⟩ : ∃ sound, Audio.Synthesizer.initial 1024 = .ok sound := ⟨_, rfl⟩
  let m : Machine Bench.ScriptedProcessor StatusPicture Disk := {
    processor := {}
    devices := { picture := {}, sound, cartridge := some cartridge, store := {} }
    settings := {} }
  have register (m : Machine Bench.ScriptedProcessor StatusPicture Disk) :
      m.devices.read 0x2002 false = m.devices.readPicture 2 false :=
    m.devices.read_eq_readConsole false (by decide)
  have first : (m.read 0x2002 false).1 = 0x80 := by
    rw [read, register]
    rfl
  have second : ((m.read 0x2002 false).2.read 0x2002 false).1 = 0 := by
    rw [read, register, read, register]
    rfl
  obtain ⟨still, runs, peeked⟩ := peeks_are_transparent (κ := Bench.ScriptedProcessor) (δ := Disk)
    StatusPicture.peeksQuietly
  refine ⟨m, rfl, first, second, ?_, (runs m _).1, ?_⟩
  · rw [still m 0x2002, first]
  · rw [peeked (peekingProcessor _) (peekingProcessor_peeked _)]

end Famicom
