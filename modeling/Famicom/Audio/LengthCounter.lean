import Famicom.Arithmetic.Wrap

/-!
# Length counters

A length counter silences its voice when it reaches zero. A register write loads it from a table of
note lengths.

## Main definitions

* `LengthCounter` — half frames left
* `LengthCounter.clock` — one half frame
* `LengthCounter.ofByte` — a new note
-/

namespace Famicom.Audio

/-- The half frames that a voice still sounds. -/
structure LengthCounter where
  counter : UInt8 := 0
  deriving DecidableEq, Repr

namespace LengthCounter

/-- The note lengths that five bits of a register choose from. -/
def lengths : Vector UInt8 32 :=
  #v[10, 254, 20, 2, 40, 4, 80, 6, 160, 8, 60, 10, 14, 12, 26, 14,
    12, 16, 24, 18, 48, 20, 96, 22, 192, 24, 72, 26, 16, 28, 32, 30]

/-- The note length in the upper five bits of a register byte. -/
def lengthOf (data : UInt8) : UInt8 :=
  let index : Fin 32 := wrapTo (data >>> 3).toNat
  lengths[index]

/-- One clock: a stopped voice is cut off, a held one keeps its count, any other counts down to
zero. -/
def clock (l : LengthCounter) (enable halt : Bool) : LengthCounter :=
  if !enable then ⟨0⟩
  else if l.counter = 0 || halt then l
  else ⟨l.counter - 1⟩

/-- The counter at the start of the note that a register byte names. -/
def ofByte (data : UInt8) : LengthCounter :=
  ⟨lengthOf data⟩

end LengthCounter

end Famicom.Audio
