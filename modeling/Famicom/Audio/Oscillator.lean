/-!
# Wave shapes

The periodic functions of time that the pulse and triangle voices follow. Every sine is a cubic
approximation of one period, and every function evaluates its terms in the order written here,
because double precision sums depend on it.

## Main definitions

* `Oscillator.cubicSine` — the cubic sine
* `Oscillator.pulse` — a pulse wave from its first harmonics
* `Oscillator.triangle` — a triangle wave, the arcsine of a sine
* `Oscillator.guard` — keeps the last good level in place of one off the scale
-/

namespace Famicom.Audio

/-- How many clocks the processor makes in a second. -/
def processorRate : Float :=
  1789773.0

namespace Oscillator

/-- Half a turn in radians. -/
def pi : Float :=
  3.14159265358979323846

/-- A whole turn in radians. -/
def tau : Float :=
  6.28318530717958647692

/-- The number without its fraction. -/
@[inline] def truncate (x : Float) : Float :=
  if x < 0.0 then x.ceil else x.floor

/-- A cubic through the zeros of the sine. The period is folded out by cutting off whole turns. -/
@[inline] def cubicSine (t : Float) : Float :=
  let turns := t * 0.15915
  let j := turns - truncate turns
  20.785 * j * (j - 0.5) * (j - 1.0)

/-- Adds harmonics `n`, `n + 1`, … to the two sawtooth sums `a` and `b` and gives their
difference. -/
def sawtooths (frequency phase t : Float) : Nat → Float → Float → Float → Float
  | 0, _, a, b => a - b
  | count + 1, n, a, b =>
    let c := n * frequency * tau * t
    sawtooths frequency phase t count (n + 1.0) (a + -(cubicSine c) / n)
      (b + -(cubicSine (c - phase * n)) / n)

/-- A pulse wave: the difference of two sawtooths of 19 harmonics, one behind the other by the high
part of the period. -/
def pulse (frequency dutyCycle amplitude t : Float) : Float :=
  2.0 * amplitude / pi * sawtooths frequency (dutyCycle * tau) t 19 1.0 0.0 0.0

/-- The rate at which the phase of the triangle is counted. -/
def phaseRate : Float :=
  44100.0

/-- A triangle wave between -1 and 1. -/
def triangle (frequency t : Float) : Float :=
  let period := phaseRate / frequency
  let phase := tau / period * (t * phaseRate)
  2.0 / pi * (cubicSine phase).asin

/-- The level, or the one before it if it is not a number from -1 to 1. -/
def guard (value previous : Float) : Float :=
  if -1.0 ≤ value && value ≤ 1.0 then value else previous

end Oscillator

end Famicom.Audio
