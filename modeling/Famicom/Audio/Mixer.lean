import Famicom.Audio.Channel

/-!
# The mixer

The two pulse voices share one nonlinear resistor network and the other three voices another. The
mixer adds the two and makes the sum ten times louder.

## Main definitions

* `Mixer.mix` — the level of all voices together
-/

namespace Famicom.Audio.Mixer

/-- The output of the network of the pulse voices. -/
def pulses (pulse1 pulse2 : Float) : Float :=
  let sum := pulse1 + pulse2
  if sum == 0.0 then 0.0 else 95.88 / (8128.0 / sum + 100.0)

/-- The output of the network of the other voices. -/
def others (triangle noise dmc : Float) : Float :=
  let sum := triangle / 8227.0 + noise / 12241.0 + dmc / 22638.0
  if sum == 0.0 then 0.0 else 159.79 / (1.0 / sum + 100.0)

/-- The level of all voices together. -/
def mix (levels : PerChannel Float) : Float :=
  (pulses levels.pulse1 levels.pulse2 + others levels.triangle levels.noise levels.dmc) * 10.0

end Famicom.Audio.Mixer
