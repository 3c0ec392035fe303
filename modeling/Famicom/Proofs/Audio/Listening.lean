import Famicom.Proofs.Audio.Tick

/-!
# The listener of the sound unit

The sound unit keeps two things for a listener, the switches of the voices and the taps. Registers,
sample bytes and ticks leave them alone, and nothing else in the unit depends on them. What a
listener does changes them and nothing else.

Only a reset looks at them, because it makes new taps with as much room as the old ones have. It
fails if that is too much for a new tap.

## Main definitions

* `Listener` — what the unit keeps for a listener
* `Synthesizer.heardBy` — the unit with another listener
* `Synthesizer.Unheard` — what is done to the unit has nothing to do with its listener
* `Synthesizer.HasRoom` — new taps can be made

## Main results

* `Synthesizer.unheard_clock` — a tick has nothing to do with the listener
* `Synthesizer.reset_of_hasRoom`, `Synthesizer.reset_of_not_hasRoom` — a reset
-/

namespace Famicom.Audio

/-- A function that fails for no voice gives every voice its value. -/
theorem PerChannel.mapM_eq_ok {α β ε : Type} {f : α → Except ε β} {g : α → β} {p : PerChannel α}
    (h : ∀ channel, f (p.get channel) = .ok (g (p.get channel))) : p.mapM f = .ok (p.map g) := by
  have pulse1 : f p.pulse1 = .ok (g p.pulse1) := h .pulse1
  have pulse2 : f p.pulse2 = .ok (g p.pulse2) := h .pulse2
  have triangle : f p.triangle = .ok (g p.triangle) := h .triangle
  have noise : f p.noise = .ok (g p.noise) := h .noise
  have dmc : f p.dmc = .ok (g p.dmc) := h .dmc
  rw [mapM, pulse1, pulse2, triangle, noise, dmc]
  rfl

/-- What the sound unit keeps for its listener. -/
structure Listener where
  switches : PerChannel Bool
  taps : PerChannel (BoundedQueue Float32)

namespace Synthesizer

variable {f g : Synthesizer → Except Fault Synthesizer}

/-- The unit with another listener. -/
def heardBy (s : Synthesizer) (l : Listener) : Synthesizer :=
  { s with switches := l.switches, taps := l.taps }

@[simp] theorem heardBy_heardBy (s : Synthesizer) (l l' : Listener) :
    (s.heardBy l).heardBy l' = s.heardBy l' :=
  rfl

/-- What is done to the unit has nothing to do with its listener. -/
def Unheard (f : Synthesizer → Except Fault Synthesizer) : Prop :=
  ∀ s l, f (s.heardBy l) = (·.heardBy l) <$> f s

theorem Unheard.ok {f : Synthesizer → Synthesizer}
    (h : ∀ s l, f (s.heardBy l) = (f s).heardBy l) : Unheard fun s => .ok (f s) :=
  fun s l => congrArg Except.ok (h s l)

theorem Unheard.bind (hf : Unheard f) (hg : Unheard g) : Unheard fun s => f s >>= g := by
  intro s l
  dsimp only
  rw [hf s l]
  cases f s with
  | error fault => rfl
  | ok s' => exact hg s' l

theorem Unheard.ite {p : Synthesizer → Prop} [DecidablePred p]
    (hp : ∀ s l, p (s.heardBy l) ↔ p s) (hf : Unheard f) (hg : Unheard g) :
    Unheard fun s => if p s then f s else g s := by
  intro s l
  dsimp only
  by_cases h : p s
  · rw [if_pos h, if_pos ((hp s l).mpr h), hf s l]
  · rw [if_neg h, if_neg (mt (hp s l).mp h), hg s l]

/-! ### Registers and ticks -/

theorem write_heardBy (s : Synthesizer) (l : Listener) (address : UInt16) (data : UInt8) :
    (s.heardBy l).write address data = (s.write address data).heardBy l := by
  unfold write
  cases Register.ofAddress? address with
  | none => rfl
  | some register => cases register <;> rfl

theorem unheard_clockDmc : Unheard clockDmc := by
  intro s l
  unfold clockDmc
  change (s.dmc.clock >>= _) = _
  cases s.dmc.clock <;> rfl

theorem unheard_trackSweeps : Unheard trackSweeps := by
  intro s l
  change (s.pulse1.trackSweep >>= fun pulse1 => s.pulse2.trackSweep >>= fun pulse2 => _) =
    _ <$> (s.pulse1.trackSweep >>= fun pulse1 => s.pulse2.trackSweep >>= fun pulse2 => _)
  cases s.pulse1.trackSweep <;> cases s.pulse2.trackSweep <;> rfl

theorem unheard_clockVoices : Unheard clockVoices := by
  intro s l
  unfold clockVoices
  change (s.pulse1.clock s.time >>= fun pulse1 => s.pulse2.clock s.time >>= fun pulse2 =>
    s.noise.clock >>= fun noise => _) = _
  cases s.pulse1.clock s.time <;> cases s.pulse2.clock s.time <;> cases s.noise.clock <;> rfl

theorem unheard_halfFrame : Unheard halfFrame := by
  intro s l
  unfold halfFrame
  change (s.pulse1.halfFrame >>= fun pulse1 => s.pulse2.halfFrame >>= fun pulse2 => _) = _
  cases s.pulse1.halfFrame <;> cases s.pulse2.halfFrame <;> rfl

theorem unheard_handleFrameEvent (event : FrameEvent) : Unheard (·.handleFrameEvent event) := by
  cases event with
  | idle => exact .ok fun _ _ => rfl
  | quarter => exact .ok fun _ _ => rfl
  | half => exact fun s l => unheard_halfFrame s.quarterFrame l

theorem unheard_clockFrame : Unheard clockFrame := fun s l =>
  ((unheard_handleFrameEvent s.frame.clock.1).bind unheard_clockVoices)
    { s with frame := s.frame.clock.2 } l

/-- A tick has nothing to do with the listener. -/
theorem unheard_clock : Unheard clock := by
  have dmc : Unheard tickDmc := .ite (fun _ _ => .rfl) unheard_clockDmc (.ok fun _ _ => rfl)
  have frame : Unheard tickFrame := .ite (fun _ _ => .rfl) unheard_clockFrame (.ok fun _ _ => rfl)
  have counted : Unheard fun s => .ok { s with ticks := s.ticks + 1 } := .ok fun _ _ => rfl
  intro s l
  rw [clock_eq, clock_eq]
  exact dmc.bind (frame.bind (unheard_trackSweeps.bind counted))
    { s with time := s.time + secondsPerTick } l

/-! ### Resets -/

/-- New taps can be made with as much room as the taps have. -/
def HasRoom (s : Synthesizer) : Prop :=
  ∀ channel, (s.taps.get channel).capacity < tapCapacityLimit

instance (s : Synthesizer) : Decidable s.HasRoom :=
  decidable_of_iff (∀ channel ∈ Channel.all, (s.taps.get channel).capacity < tapCapacityLimit)
    ⟨fun h channel => h channel (by cases channel <;> decide), fun h channel _ => h channel⟩

/-- With room, a reset makes an empty tap for each tap. -/
theorem reset_of_hasRoom {s : Synthesizer} (room : s.HasRoom) :
    s.reset = .ok { switches := s.switches, taps := s.taps.map (·.clear) } := by
  unfold reset
  rw [PerChannel.mapM_eq_ok (g := (·.clear)) fun channel => if_pos (room channel)]
  rfl

/-- The first tap that is too large makes the reset fail. -/
theorem reset_of_not_hasRoom {s : Synthesizer} (full : ¬ s.HasRoom) :
    s.reset = .error .capacityOverflow := by
  unfold reset PerChannel.mapM newTap
  dsimp only
  split_ifs with pulse1 pulse2 triangle noise dmc <;> try rfl
  refine absurd (fun channel => ?_) full
  cases channel <;> assumption

end Synthesizer

end Famicom.Audio
