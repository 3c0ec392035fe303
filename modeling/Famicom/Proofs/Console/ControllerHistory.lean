import Famicom.Console.Controller

/-!
# The history of the controllers

A controller keeps its latched buttons in a byte that is shifted. What a read of it gives can be
told without that byte, from what happened before: the buttons that were held at the last fall of
the strobe, and the number of reads since.

## Main definitions

* `ControllerEvent`, `ControllerEvent.IsQuiet` — what controllers notice, and what is of no account
* `ControllerHistory.strobed`, `ControllerHistory.held`, `ControllerHistory.latched`,
  `ControllerHistory.shifted` — what the past tells, newest event first
* `ControllerHistory.reading` — what a read gives after a past
* `Controllers.Remembers` — the controllers are as the past tells
* `Controllers.Run` — events that are true of controllers lead from some to others

## Main results

* `ControllerHistory.reading_append_of_quiet` — while the strobe is low, nothing counts but the
  player's own reads
* `Controllers.Remembers.after` — controllers remember what they notice
* `Controllers.Run.eq_reading` — every read of a run gives what its past tells
-/

namespace Famicom

/-- What controllers notice. -/
inductive ControllerEvent where
  | press (player : Player) (buttons : UInt8)
  | strobe (data : UInt8)
  | read (player : Player) (peek : Bool) (byte : UInt8)
  deriving DecidableEq, Repr

/-- While the strobe is low, an event is of no account to a player: buttons, a write that leaves the
strobe low, a peek, or a read of the other controller. -/
def ControllerEvent.IsQuiet (player : Player) : ControllerEvent → Prop
  | .press _ _ => True
  | .strobe data => data &&& 0x01 = 0
  | .read other peek _ => other = player → peek = true

/-! ### What the past tells -/

namespace ControllerHistory

/-- A bit of a byte. -/
def bitOf (byte : UInt8) (number : Nat) : UInt8 :=
  if byte.toNat.testBit number then 1 else 0

variable (player : Player)

/-- The level at which the last write has left the strobe. -/
def strobed : List ControllerEvent → Bool
  | [] => false
  | .strobe data :: _ => data &&& 0x01 != 0
  | .press _ _ :: past | .read _ _ _ :: past => strobed past

/-- The buttons that a player holds down. -/
def held : List ControllerEvent → UInt8
  | [] => 0
  | .press other buttons :: past => if other = player then buttons else held past
  | .strobe _ :: past | .read _ _ _ :: past => held past

/-- The strobe falls in an event. -/
def falls (past : List ControllerEvent) (event : ControllerEvent) : Bool :=
  strobed past && !strobed (event :: past)

/-- The buttons that a player held down when the strobe last fell. -/
def latched : List ControllerEvent → UInt8
  | [] => 0
  | event :: past => if falls past event then held player past else latched past

/-- An event is a read of the player's latched buttons. -/
def shifts (past : List ControllerEvent) : ControllerEvent → Bool
  | .read other false _ => !strobed past && other = player
  | _ => false

/-- How often the latched buttons of a player were read since the strobe last fell. -/
def shifted : List ControllerEvent → Nat
  | [] => 0
  | event :: past =>
    if falls past event then 0
    else if shifts player past event then shifted past + 1
    else shifted past

/-- What a read of a player's controller gives after a past: the first button while the strobe is
high, and then the latched buttons one by one. -/
def reading (past : List ControllerEvent) : UInt8 :=
  if strobed past then bitOf (held player past) 0
  else if shifted player past < 8 then bitOf (latched player past) (shifted player past)
  else 0

variable {player} {past : List ControllerEvent} {event : ControllerEvent}

theorem falls_of_strobed (same : strobed (event :: past) = strobed past) :
    falls past event = false := by
  rw [falls, same, Bool.and_not_self]

theorem latched_cons_of_falls (fall : falls past event = true) :
    latched player (event :: past) = held player past := by
  rw [latched, if_pos fall]

theorem latched_cons (level : falls past event = false) :
    latched player (event :: past) = latched player past := by
  rw [latched, level, if_neg Bool.false_ne_true]

theorem shifted_cons_of_falls (fall : falls past event = true) :
    shifted player (event :: past) = 0 := by
  rw [shifted, if_pos fall]

theorem shifted_cons (level : falls past event = false) :
    shifted player (event :: past) =
      if shifts player past event then shifted player past + 1 else shifted player past := by
  rw [shifted, level, if_neg Bool.false_ne_true]

theorem strobed_cons_of_quiet (low : strobed past = false) (quiet : event.IsQuiet player) :
    strobed (event :: past) = false := by
  cases event with
  | press _ _ => exact low
  | strobe data =>
    have clear : data &&& 0x01 = 0 := quiet
    rw [strobed, clear]
    rfl
  | read _ _ _ => exact low

theorem shifts_of_quiet (quiet : event.IsQuiet player) : shifts player past event = false := by
  cases event with
  | press _ _ => rfl
  | strobe _ => rfl
  | read other peek _ =>
    cases peek with
    | true => rfl
    | false =>
      have another : other ≠ player := fun same => Bool.false_ne_true (quiet same)
      simp [shifts, another]

theorem reading_cons_of_quiet (low : strobed past = false) (quiet : event.IsQuiet player) :
    reading player (event :: past) = reading player past := by
  have still := strobed_cons_of_quiet low quiet
  have level : falls past event = false := falls_of_strobed (still.trans low.symm)
  have count : shifted player (event :: past) = shifted player past := by
    rw [shifted_cons level, shifts_of_quiet quiet, if_neg Bool.false_ne_true]
  simp only [reading, still, low, count, latched_cons level, Bool.false_eq_true, if_false]

/-- While the strobe is low, quiet events change nothing for a player. -/
theorem reading_append_of_quiet (low : strobed past = false) {events : List ControllerEvent}
    (quiet : ∀ event ∈ events, event.IsQuiet player) :
    reading player (events.reverse ++ past) = reading player past := by
  induction events generalizing past with
  | nil => rfl
  | cons event events ih =>
    have first := quiet event List.mem_cons_self
    have rest := ih (strobed_cons_of_quiet low first) fun event member =>
      quiet event (List.mem_cons_of_mem _ member)
    rw [List.reverse_cons, List.append_assoc]
    exact rest.trans (reading_cons_of_quiet low first)

/-! ### Bits -/

theorem and_one_eq_bitOf (byte : UInt8) : byte &&& 0x01 = bitOf byte 0 := by
  rw [← UInt8.toNat_inj, UInt8.toNat_and]
  change byte.toNat &&& 1 = _
  rw [Nat.and_one_is_mod, bitOf, Nat.testBit_zero]
  rcases Nat.mod_two_eq_zero_or_one byte.toNat with even | odd
  · simp [even]
  · simp [odd]

theorem bitOf_eq_zero {byte : UInt8} {number : Nat} (beyond : 8 ≤ number) :
    bitOf byte number = 0 := by
  have small : byte.toNat < 2 ^ number :=
    Nat.lt_of_lt_of_le byte.toNat_lt (Nat.pow_le_pow_right (by decide) beyond)
  rw [bitOf, Nat.testBit_lt_two_pow small, if_neg Bool.false_ne_true]

end ControllerHistory

open ControllerHistory

/-! ### What controllers remember -/

namespace Controller

theorem buttons_read (c : Controller) (strobe peek : Bool) :
    (c.read strobe peek).2.buttons = c.buttons := by
  cases strobe <;> cases peek <;> rfl

/-- A read shifts the latched buttons, unless the strobe is high or it is a peek. -/
theorem shifter_read (c : Controller) (strobe peek : Bool) :
    (c.read strobe peek).2.shifter =
      if !strobe && !peek then c.shifter >>> 1 else c.shifter := by
  cases strobe <;> cases peek <;> rfl

end Controller

namespace Controllers

theorem get_set (c : Controllers) (player other : Player) (controller : Controller) :
    (c.set player controller).get other = if player = other then controller else c.get other := by
  cases player <;> cases other <;> rfl

/-- The controllers after an event. -/
def after (c : Controllers) : ControllerEvent → Controllers
  | .press player buttons => c.press player buttons
  | .strobe data => c.strobeWith data
  | .read player peek _ => (c.read player peek).2

/-- The controllers are as the past tells. -/
structure Remembers (c : Controllers) (past : List ControllerEvent) : Prop where
  strobe : c.strobe = strobed past
  buttons : ∀ player, (c.get player).buttons = held player past
  shifter : ∀ player, (c.get player).shifter.toNat =
    (latched player past).toNat >>> shifted player past

variable {c c' : Controllers} {past : List ControllerEvent}

theorem remembers_nil : Remembers {} [] :=
  ⟨rfl, fun player => by cases player <;> rfl, fun player => by cases player <;> rfl⟩

theorem Remembers.press (h : c.Remembers past) (player : Player) (buttons : UInt8) :
    (c.press player buttons).Remembers (.press player buttons :: past) := by
  have level : falls past (.press player buttons) = false := falls_of_strobed rfl
  refine ⟨?_, ?_, ?_⟩
  · cases player <;> exact h.strobe
  · intro other
    rw [Controllers.press, get_set, held]
    by_cases same : player = other
    · rw [if_pos same, if_pos same]
    · rw [if_neg same, if_neg same, h.buttons]
  · -- What was latched stays, though the buttons change.
    intro other
    have kept : ((c.press player buttons).get other).shifter = (c.get other).shifter := by
      rw [Controllers.press, get_set]
      split
      · rename_i same
        rw [← same]
      · rfl
    rw [kept, h.shifter, latched_cons level, shifted_cons level]
    rfl

theorem Remembers.strobeWith (h : c.Remembers past) (data : UInt8) :
    (c.strobeWith data).Remembers (.strobe data :: past) := by
  have falling : (c.strobe && !(data &&& 0x01 != 0)) = falls past (.strobe data) := by
    rw [h.strobe, falls, strobed]
  unfold Controllers.strobeWith
  dsimp only
  rw [falling]
  cases fall : falls past (.strobe data) with
  | true =>
    rw [if_pos rfl]
    -- Both controllers latch what they hold, and nothing of it has been read.
    refine ⟨rfl, ?_, ?_⟩
    · intro player
      rw [held, ← h.buttons]
      cases player <;> rfl
    · intro player
      rw [latched_cons_of_falls fall, shifted_cons_of_falls fall, ← h.buttons]
      cases player <;> rfl
  | false =>
    rw [if_neg Bool.false_ne_true]
    refine ⟨rfl, h.buttons, ?_⟩
    intro player
    rw [latched_cons fall, shifted_cons fall]
    exact h.shifter player

theorem Remembers.read (h : c.Remembers past) (player : Player) (peek : Bool) (byte : UInt8) :
    (c.read player peek).2.Remembers (.read player peek byte :: past) := by
  have level : falls past (.read player peek byte) = false := falls_of_strobed rfl
  refine ⟨?_, ?_, ?_⟩
  · cases player <;> exact h.strobe
  · intro other
    rw [Controllers.read, get_set, held, ← h.buttons]
    split
    · rename_i same
      rw [Controller.buttons_read, same]
    · rfl
  · intro other
    rw [Controllers.read, get_set, latched_cons level, shifted_cons level]
    by_cases same : player = other
    · obtain rfl := same
      rw [if_pos rfl, Controller.shifter_read, h.strobe]
      have known := h.shifter player
      cases peek with
      | true => simpa [shifts] using known
      | false =>
        cases low : strobed past with
        | true => simpa [shifts, low] using known
        | false =>
          -- One more button is out.
          simp only [shifts, low, Bool.not_false, Bool.and_self, decide_true, if_true]
          rw [UInt8.toNat_shiftRight, known, Nat.shiftRight_add]
          rfl
    · have other_reads : shifts other past (.read player peek byte) = false := by
        cases peek <;> simp [shifts, same]
      rw [if_neg same, other_reads, if_neg Bool.false_ne_true, h.shifter]

/-- Controllers remember what they notice. -/
theorem Remembers.after (h : c.Remembers past) (event : ControllerEvent) :
    (c.after event).Remembers (event :: past) := by
  cases event with
  | press player buttons => exact h.press player buttons
  | strobe data => exact h.strobeWith data
  | read player peek byte => exact h.read player peek byte

/-- Controllers give what the past tells. -/
theorem Remembers.eq_reading (h : c.Remembers past) (player : Player) (peek : Bool) :
    (c.read player peek).1 = reading player past := by
  unfold Controllers.read Controller.read reading
  rw [h.strobe]
  cases strobed past with
  | true => exact (and_one_eq_bitOf _).trans (congrArg (bitOf · 0) (h.buttons player))
  | false =>
    -- The lowest bit of the shifter is the next of the latched buttons.
    have next : (c.get player).shifter &&& 0x01 =
        bitOf (latched player past) (shifted player past) := by
      rw [and_one_eq_bitOf, bitOf, bitOf, h.shifter, Nat.testBit_shiftRight, Nat.add_zero]
    simp only [Bool.false_eq_true, if_false]
    rw [next]
    split
    · rfl
    · rename_i beyond
      exact bitOf_eq_zero (Nat.not_lt.mp beyond)

/-! ### Runs -/

/-- A read tells the byte that the controllers give. -/
def Gives (c : Controllers) : ControllerEvent → Prop
  | .read player peek byte => (c.read player peek).1 = byte
  | _ => True

/-- The events are true of the controllers, and lead from the first to the second. -/
inductive Run : Controllers → List ControllerEvent → Controllers → Prop
  | nil (c : Controllers) : Run c [] c
  | cons {c c' : Controllers} {event : ControllerEvent} {events : List ControllerEvent}
    (gives : c.Gives event) (rest : Run (c.after event) events c') : Run c (event :: events) c'

namespace Run

variable {events later : List ControllerEvent}

/-- Runs are put together. -/
theorem append {c'' : Controllers} (h : Run c events c') (h' : Run c' later c'') :
    Run c (events ++ later) c'' := by
  induction h with
  | nil c => exact h'
  | cons gives rest ih => exact .cons gives (ih h')

/-- A run is taken apart. -/
theorem exists_of_append (h : Run c (events ++ later) c') :
    ∃ middle, Run c events middle ∧ Run middle later c' := by
  induction events generalizing c with
  | nil => exact ⟨c, .nil c, h⟩
  | cons event events ih =>
    cases h with
    | cons gives rest =>
      obtain ⟨middle, first, second⟩ := ih rest
      exact ⟨middle, .cons gives first, second⟩

/-- Controllers remember a run. -/
theorem remembers (h : Run c events c') (known : c.Remembers past) :
    c'.Remembers (events.reverse ++ past) := by
  induction h generalizing past with
  | nil c => exact known
  | cons gives rest ih =>
    rw [List.reverse_cons, List.append_assoc]
    exact ih (known.after _)

/-- Every read of a run gives what its past tells. -/
theorem eq_reading (h : Run c events c') (known : c.Remembers past) {before : List ControllerEvent}
    {player : Player} {peek : Bool} {byte : UInt8}
    (told : events = before ++ .read player peek byte :: later) :
    byte = reading player (before.reverse ++ past) := by
  rw [told] at h
  obtain ⟨middle, first, second⟩ := exists_of_append h
  cases second with
  | cons gives rest => exact gives.symm.trans ((first.remembers known).eq_reading player peek)

end Run

end Controllers

end Famicom
