import Mathlib.Logic.Function.Iterate
import Famicom.Proofs.Audio.FrameUnits
import Famicom.Proofs.Audio.Registers

/-!
# How long a note lasts

Four of the voices have a length counter. A voice that is switched off has none of its note left. On
one that is switched on a write to its last register starts a note, and then nothing but half frames
moves the counter: not the other voices, nor the switches as long as they leave the voice on. A held
note lasts for ever.

## Main definitions

* `CountedVoice` — a voice with a length counter
* `Note` — what such a voice knows of its note
* `CountedVoice.Spares` — an operation that leaves a note to its half frames
* `Synthesizer.halfFrames` — the half frames of a run

## Main results

* `Synthesizer.note_apply`, `Synthesizer.note_run` — one operation, and every run
* `Synthesizer.countP_frameEvents_clocks` — the frame events of ticks in a row
* `Synthesizer.note_lasts` — when the status register shows a note
-/

namespace Famicom.Audio

/-- A voice with a length counter. -/
inductive CountedVoice where
  | pulse1
  | pulse2
  | triangle
  | noise
  deriving DecidableEq, Repr

namespace CountedVoice

/-- The bit of the voice in the status register and among the switches. -/
def statusBit : CountedVoice → UInt8
  | .pulse1 => 0x01
  | .pulse2 => 0x02
  | .triangle => 0x04
  | .noise => 0x08

/-- The register belongs to the voice. -/
def owns : CountedVoice → Register → Bool
  | .pulse1, .pulse1 _ => true
  | .pulse2, .pulse2 _ => true
  | .triangle, .triangle _ => true
  | .noise, .noise _ => true
  | _, _ => false

/-- The register that starts a note. -/
def noteRegister : CountedVoice → Register
  | .pulse1 => .pulse1 .timerHigh
  | .pulse2 => .pulse2 .timerHigh
  | .triangle => .triangle .timerHigh
  | .noise => .noise .length

/-- The operations that leave a note to its half frames: no reset, no write to a register of the
voice, and no write to the switches that turns the voice off. -/
def Spares (v : CountedVoice) : Synthesizer.Operation → Prop
  | .write address data =>
    (∀ r, v.owns r = true → address ≠ r.address) ∧ (address = 0x4015 → data &&& v.statusBit ≠ 0)
  | .reset => False
  | .clock | .sample | .deliver _ | .setHeard _ _ | .setTapCapacity _ | .drain _ => True

end CountedVoice

/-! ### Notes -/

/-- Every note lasts a while. -/
theorem LengthCounter.lengthOf_pos (data : UInt8) : 0 < (lengthOf data).toNat := by
  have lengths_pos : ∀ index : Fin 32, 0 < (lengths[index]).toNat := by decide
  exact lengths_pos _

/-- What a voice knows of its note. -/
structure Note where
  /-- The voice is switched on. -/
  enabled : Bool
  /-- The length counter stands still. -/
  held : Bool
  length : LengthCounter
  deriving DecidableEq, Repr

namespace Note

/-- Switches the voice. -/
def switch (n : Note) (enabled : Bool) : Note :=
  { n with enabled, length := if enabled then n.length else ⟨0⟩ }

/-- Starts the note that a register byte names. -/
def start (n : Note) (data : UInt8) : Note :=
  { n with length := if n.enabled then .ofByte data else n.length }

/-- One half frame. -/
def halfFrame (n : Note) : Note :=
  { n with length := n.length.clock n.enabled n.held }

variable {n : Note}

theorem switch_on (on : n.enabled = true) : n.switch true = n := by
  unfold switch
  rw [if_pos rfl, ← on]

theorem halfFrame_of_held (on : n.enabled = true) (held : n.held = true) : n.halfFrame = n := by
  have kept : n.length.clock n.enabled n.held = n.length := by simp [LengthCounter.clock, on, held]
  rw [halfFrame, kept]

theorem toNat_counter_halfFrame (on : n.enabled = true) (free : n.held = false) :
    n.halfFrame.length.counter.toNat = n.length.counter.toNat - 1 := by
  have counts : n.halfFrame.length =
      if n.length.counter = 0 then n.length else ⟨n.length.counter - 1⟩ := by
    simp [halfFrame, LengthCounter.clock, on, free]
  rw [counts]
  split
  · rename_i out
    simp [out]
  · rename_i left
    have pred := Checked.toNat_pred_of_ne left
    dsimp only
    omega

theorem enabled_iterate_halfFrame (n : Note) (k : Nat) :
    (halfFrame^[k] n).enabled = n.enabled := by
  induction k generalizing n with
  | zero => rfl
  | succ k ih => exact ih n.halfFrame

/-- What is left of a note after a number of half frames. -/
theorem toNat_counter_iterate_halfFrame (on : n.enabled = true) (k : Nat) :
    (halfFrame^[k] n).length.counter.toNat =
      if n.held then n.length.counter.toNat else n.length.counter.toNat - k := by
  induction k generalizing n with
  | zero => simp
  | succ k ih =>
    -- The first half frame leaves a note that is as long, or shorter by one.
    rw [Function.iterate_succ_apply, ih (n := n.halfFrame) on]
    change (if n.held then _ else _) = _
    split
    · rename_i held
      rw [halfFrame_of_held on held]
    · rename_i free
      rw [toNat_counter_halfFrame on (Bool.eq_false_iff.mpr free)]
      omega

/-- The voice is on or off as its switch says, and has nothing of a note left if it is off. -/
structure IsSwitched (n : Note) (on : Bool) : Prop where
  enabled : n.enabled = on
  silent : on = false → n.length = ⟨0⟩

namespace IsSwitched

variable {on : Bool}

theorem switch (n : Note) (on : Bool) : (n.switch on).IsSwitched on where
  enabled := rfl
  silent off := by rw [Note.switch, off]; rfl

theorem hold (h : n.IsSwitched on) (held : Bool) : { n with held }.IsSwitched on :=
  ⟨h.enabled, h.silent⟩

theorem start (h : n.IsSwitched on) (data : UInt8) : (n.start data).IsSwitched on where
  enabled := h.enabled
  silent off := by
    have stopped : ¬ n.enabled = true := by simp [h.enabled, off]
    rw [Note.start, if_neg stopped, h.silent off]

theorem halfFrame (h : n.IsSwitched on) : n.halfFrame.IsSwitched on where
  enabled := h.enabled
  silent off := by simp [Note.halfFrame, LengthCounter.clock, h.enabled, off]

end IsSwitched

end Note

/-! ### What a tick leaves alone -/

namespace Pulse

variable {p p' : Pulse}

theorem switches_of_handle {event : FrameEvent} (handled : p.handle event = .ok p') :
    p'.enabled = p.enabled ∧ p'.halt = p.halt := by
  cases event with
  | idle => exact Except.ok.inj handled ▸ ⟨rfl, rfl⟩
  | quarter => exact Except.ok.inj handled ▸ ⟨rfl, rfl⟩
  | half =>
    obtain ⟨moved, -, made⟩ := bind_eq_ok.mp handled
    exact Except.ok.inj made ▸ ⟨rfl, rfl⟩

theorem switches_of_tick {event : Option FrameEvent} {t : Float}
    (ticked : p.tick event t = .ok p') : p'.enabled = p.enabled ∧ p'.halt = p.halt := by
  obtain ⟨p₁, advanced, tracked⟩ := bind_eq_ok.mp ticked
  obtain ⟨sweep, -, made⟩ := bind_eq_ok.mp tracked
  obtain rfl := Except.ok.inj made
  cases event with
  | none => exact Except.ok.inj advanced ▸ ⟨rfl, rfl⟩
  | some event =>
    obtain ⟨p₂, handled, clocked⟩ := bind_eq_ok.mp advanced
    obtain ⟨seq, output, made, -⟩ := p₂.exists_clock t
    obtain rfl := Except.ok.inj (made.symm.trans clocked)
    have kept := switches_of_handle handled
    exact kept

end Pulse

theorem Triangle.switches_tick (v : Triangle) (event : Option FrameEvent) (t : Float) :
    (v.tick event t).enabled = v.enabled ∧ (v.tick event t).control = v.control := by
  have clocked (v : Triangle) :
      (v.clock t).enabled = v.enabled ∧ (v.clock t).control = v.control := by
    unfold clock
    split <;> exact ⟨rfl, rfl⟩
  cases event with
  | none => exact ⟨rfl, rfl⟩
  | some event =>
    have handled : (v.handle event).enabled = v.enabled ∧ (v.handle event).control = v.control := by
      cases event <;> exact ⟨rfl, rfl⟩
    exact ⟨(clocked _).1.trans handled.1, (clocked _).2.trans handled.2⟩

theorem Noise.switches_of_tick {v v' : Noise} {event : Option FrameEvent}
    (ticked : v.tick event = .ok v') : v'.enabled = v.enabled ∧ v'.halt = v.halt := by
  cases event with
  | none => exact Except.ok.inj ticked ▸ ⟨rfl, rfl⟩
  | some event =>
    obtain ⟨seq, -, made⟩ := bind_eq_ok.mp ticked
    obtain rfl := Except.ok.inj made
    cases event <;> exact ⟨rfl, rfl⟩

namespace Synthesizer

/-- What a voice knows of its note. -/
def note (s : Synthesizer) : CountedVoice → Note
  | .pulse1 => ⟨s.pulse1.enabled, s.pulse1.halt, s.pulse1.length⟩
  | .pulse2 => ⟨s.pulse2.enabled, s.pulse2.halt, s.pulse2.length⟩
  | .triangle => ⟨s.triangle.enabled, s.triangle.control, s.triangle.length⟩
  | .noise => ⟨s.noise.enabled, s.noise.halt, s.noise.length⟩

/-- The event of the frame sequencer that an operation brings. -/
def frameEvents (s : Synthesizer) : Operation → List FrameEvent
  | .clock => [s.nextFrameEvent]
  | _ => []

/-- The half frames of a run. -/
def halfFrames (ops : List Operation) (s : Synthesizer) : Nat :=
  (runLog apply frameEvents ops s).countP (·.isHalf)

variable {s s' : Synthesizer} {v : CountedVoice}

theorem note_write_switches (s : Synthesizer) (v : CountedVoice) (data : UInt8) :
    (s.write 0x4015 data).note v = (s.note v).switch (data &&& v.statusBit != 0) := by
  cases v <;> rfl

theorem note_write_noteRegister (s : Synthesizer) (v : CountedVoice) (data : UInt8) :
    (s.write v.noteRegister.address data).note v = (s.note v).start data := by
  cases v <;> rfl

/-- A write elsewhere does not reach the voice. -/
theorem note_write_of_ne (s : Synthesizer) {address : UInt16} (data : UInt8)
    (other : ∀ r, v.owns r = true → address ≠ r.address) (switch : address ≠ 0x4015) :
    (s.write address data).note v = s.note v := by
  unfold write
  cases found : Register.ofAddress? address with
  | none => rfl
  | some r =>
    have there := Register.ofAddress?_eq_some_iff.mp found
    have foreign : v.owns r = false := Bool.eq_false_iff.mpr fun own => other r own there
    cases r with
    | status => exact absurd there switch
    | pulse1 r | pulse2 r | triangle r | noise r | dmc r => cases v <;> first | rfl | cases foreign

theorem note_of_clock (clocked : s.clock = .ok s') :
    s'.note v = if s.nextFrameEvent.isHalf then (s.note v).halfFrame else s.note v := by
  have tick := clock_eq_ok_iff.mp clocked
  have moved := movesUnits_clock clocked
  -- A voice knows of its note what its switches and its length counter tell.
  have join : ∀ {enabled held enabled' held' : Bool} {length length' : LengthCounter},
      enabled' = enabled ∧ held' = held →
      length' = (if s.nextFrameEvent.isHalf then length.clock enabled held else length) →
      Note.mk enabled' held' length' = if s.nextFrameEvent.isHalf then
        (Note.mk enabled held length).halfFrame else ⟨enabled, held, length⟩ := by
    rintro enabled held _ _ length _ ⟨rfl, rfl⟩ rfl
    split <;> rfl
  cases v with
  | pulse1 => exact join (Pulse.switches_of_tick tick.pulse1) moved.pulse1.length
  | pulse2 => exact join (Pulse.switches_of_tick tick.pulse2) moved.pulse2.length
  | triangle =>
    exact join (tick.triangle ▸ s.triangle.switches_tick _ _) moved.triangle.length
  | noise => exact join (Noise.switches_of_tick tick.noise) moved.noise.length

/-- A write to a register of the voice may hold its note or start one. -/
theorem note_write_cases (s : Synthesizer) (data : UInt8) {r : Register} (own : v.owns r = true) :
    (∃ held, (s.write r.address data).note v = { s.note v with held }) ∨
      (s.write r.address data).note v = (s.note v).start data := by
  -- What is left are the registers of the voice alone.
  cases v <;> cases r <;> cases own
  all_goals
    rename_i r
    cases r <;> first | exact .inl ⟨_, rfl⟩ | exact .inr rfl

/-! ### Switches -/

/-- A voice is on or off as the switches were last set. -/
theorem isSwitched_of_run {start : Synthesizer} (begun : start.IsStart) {ops : List Operation}
    (run : ops.foldlM apply start = .ok s) (v : CountedVoice) :
    (s.note v).IsSwitched (lastWritten 0x4015 (sinceReset ops) &&& v.statusBit != 0) := by
  refine holds_sinceReset (R := fun s recent =>
    (s.note v).IsSwitched (lastWritten 0x4015 recent &&& v.statusBit != 0)) ?_ ?_ begun run
  · intro s begun
    obtain ⟨switches, taps, rfl⟩ := begun.exists_eq
    cases v <;> exact ⟨rfl, fun _ => rfl⟩
  · intro s s' recent op switched kept applied
    cases op with
    | write address data =>
      obtain rfl := Except.ok.inj applied
      by_cases switch : address = 0x4015
      · subst switch
        rw [lastWritten_write_self, note_write_switches]
        exact .switch _ _
      · -- No register of the voice turns it on or off.
        rw [lastWritten_write_of_ne switch]
        by_cases own : ∃ r, v.owns r = true ∧ address = r.address
        · obtain ⟨r, own, rfl⟩ := own
          rcases s.note_write_cases data own with ⟨held, written⟩ | written
          · rw [written]
            exact switched.hold held
          · rw [written]
            exact switched.start data
        · rw [note_write_of_ne s data (fun r owned there => own ⟨r, owned, there⟩) switch]
          exact switched
    | clock =>
      rw [note_of_clock applied]
      split
      · exact switched.halfFrame
      · exact switched
    | reset => exact absurd rfl kept
    | sample | deliver _ | setHeard _ _ | setTapCapacity _ | drain _ =>
      obtain rfl := Except.ok.inj applied
      exact switched

/-! ### Runs -/

theorem halfFrames_cons {op : Operation} (ops : List Operation) (first : s.apply op = .ok s') :
    halfFrames (op :: ops) s = (frameEvents s op).countP (·.isHalf) + halfFrames ops s' := by
  rw [halfFrames, runLog_cons_of_ok ops first, List.countP_append]
  rfl

theorem halfFrames_append {ops : List Operation} (ops' : List Operation)
    (run : ops.foldlM apply s = .ok s') :
    halfFrames (ops ++ ops') s = halfFrames ops s + halfFrames ops' s' := by
  rw [halfFrames, runLog_append_of_ok ops' run, List.countP_append]
  rfl

/-- An operation that leaves a note to its half frames brings it one at most. -/
theorem note_apply {op : Operation} (on : (s.note v).enabled = true) (spares : v.Spares op)
    (run : s.apply op = .ok s') :
    s'.note v = Note.halfFrame^[(frameEvents s op).countP (·.isHalf)] (s.note v) := by
  cases op with
  | write address data =>
    obtain ⟨other, switching⟩ := spares
    obtain rfl := Except.ok.inj run
    by_cases switch : address = 0x4015
    · subst switch
      rw [note_write_switches, bne_iff_ne.mpr (switching rfl), Note.switch_on on]
      rfl
    · exact note_write_of_ne s data other switch
  | clock =>
    rw [note_of_clock run, frameEvents, List.countP_singleton]
    split <;> rfl
  | reset => exact spares.elim
  | sample | deliver _ | setHeard _ _ | setTapCapacity _ | drain _ =>
    obtain rfl := Except.ok.inj run
    rfl

theorem note_run {ops : List Operation} (on : (s.note v).enabled = true)
    (spares : ∀ op ∈ ops, v.Spares op) (run : ops.foldlM apply s = .ok s') :
    s'.note v = Note.halfFrame^[halfFrames ops s] (s.note v) := by
  induction ops generalizing s with
  | nil =>
    obtain rfl := foldlM_nil_eq_ok.mp run
    rfl
  | cons op ops ih =>
    obtain ⟨middle, first, rest⟩ := foldlM_cons_eq_ok.mp run
    have here := note_apply on (spares op (List.mem_cons_self ..)) first
    have on' : (middle.note v).enabled = true := by
      rw [here, Note.enabled_iterate_halfFrame, on]
    rw [ih on' (fun op member => spares op (List.mem_cons_of_mem _ member)) rest, here,
      ← Function.iterate_add_apply, Nat.add_comm, halfFrames_cons ops first]

/-- The frame events of ticks in a row are told by the number of ticks before them. -/
theorem countP_frameEvents_clocks {p : FrameEvent → Bool} {due : Nat → Bool}
    (tells : ∀ n, p ((eventOfTick? n).getD .idle) = due n) {count n : Nat}
    (counts : s.CountsTicks count) (few : count + n ≤ 2 ^ 64)
    (run : (List.replicate n Operation.clock).foldlM apply s = .ok s') :
    (runLog apply frameEvents (List.replicate n .clock) s).countP p =
      (List.range' count n).countP due := by
  refine countP_runLog_clocks ?_ counts few run
  intro s s' aligned clocked
  rw [frameEvents, List.countP_singleton, nextFrameEvent_eq, aligned.frameEvent?_eq, tells]

theorem halfFrames_clocks {count n : Nat} (counts : s.CountsTicks count)
    (few : count + n ≤ 2 ^ 64) (run : (List.replicate n Operation.clock).foldlM apply s = .ok s') :
    halfFrames (List.replicate n .clock) s = (List.range' count n).countP halfDue :=
  countP_frameEvents_clocks isHalf_eventOfTick? counts few run

theorem status_and_statusBit (s : Synthesizer) (v : CountedVoice) :
    s.status &&& v.statusBit ≠ 0 ↔ 0 < (s.note v).length.counter := by
  obtain ⟨pulse1, pulse2, triangle, noise, -⟩ := s.status_bits
  cases v with
  | pulse1 => exact pulse1
  | pulse2 => exact pulse2
  | triangle => exact triangle
  | noise => exact noise

/-- **Notes end on time.** Let a unit be in any state that power-on, resets and operations lead to.
Its voices are on or off as the switches were last set, and off if they were not set since. A voice
that is off has nothing of a note left, and the status register does not show it. On one that is on
let a note be started, and let a run follow that leaves it to its half frames, whatever it does to
other voices. At its end the status register shows the note if it is held, or if there were fewer
half frames than the note is long. -/
theorem note_lasts {start : Synthesizer} (begun : start.IsStart) {past : List Operation}
    (reached : past.foldlM apply start = .ok s) (v : CountedVoice) :
    ((s.note v).enabled = true ↔ lastWritten 0x4015 (sinceReset past) &&& v.statusBit ≠ 0) ∧
    (lastWritten 0x4015 (sinceReset past) &&& v.statusBit = 0 →
      (s.note v).length.counter = 0 ∧ s.status &&& v.statusBit = 0) ∧
    (lastWritten 0x4015 (sinceReset past) &&& v.statusBit ≠ 0 → ∀ data ops s',
      (∀ op ∈ ops, v.Spares op) →
      ops.foldlM apply (s.write v.noteRegister.address data) = .ok s' →
      (s'.status &&& v.statusBit ≠ 0 ↔
        (s.note v).held = true ∨
          halfFrames ops (s.write v.noteRegister.address data) <
            (LengthCounter.lengthOf data).toNat)) := by
  have switched := isSwitched_of_run begun reached v
  refine ⟨?_, ?_, ?_⟩
  · rw [switched.enabled]
    exact bne_iff_ne
  · intro off
    have silent := switched.silent (bne_eq_false_iff_eq.mpr off)
    have counter : (s.note v).length.counter = 0 := congrArg LengthCounter.counter silent
    refine ⟨counter, ?_⟩
    by_contra shown
    have positive := (status_and_statusBit s v).mp shown
    rw [counter] at positive
    exact absurd positive (by decide)
  · intro lit data ops s' spares run
    have on : (s.note v).enabled = true := switched.enabled.trans (bne_iff_ne.mpr lit)
    have started : (s.write v.noteRegister.address data).note v =
        { s.note v with length := .ofByte data } := by
      rw [note_write_noteRegister, Note.start, if_pos on]
    have on' : ((s.write v.noteRegister.address data).note v).enabled = true := by
      rw [started]
      exact on
    rw [status_and_statusBit, note_run on' spares run, UInt8.lt_iff_toNat_lt,
      Note.toNat_counter_iterate_halfFrame on', started]
    have positive := LengthCounter.lengthOf_pos data
    change 0 < (if (s.note v).held then (LengthCounter.lengthOf data).toNat
      else (LengthCounter.lengthOf data).toNat - _) ↔ _
    cases (s.note v).held with
    | true => simpa using positive
    | false =>
      rw [if_neg Bool.false_ne_true, Nat.sub_pos_iff_lt]
      simp

/-- A note of the triangle voice of length two goes on while a pulse voice is set up and another is
switched off. It is still there after the first half frame, and over after the second. -/
theorem note_lasts_of_triangle :
    let others := [Operation.write 0x4003 0xFF, .write 0x4015 0x04, .sample]
    let sounding := others ++ List.replicate 44737 .clock
    let ended := others ++ List.replicate 89491 .clock
    ∃ start s t t', initial 1024 = .ok start ∧ [.write 0x4015 0x0C].foldlM apply start = .ok s ∧
      s.status &&& 0x01 = 0 ∧
      sounding.foldlM apply (s.write 0x400B 0x18) = .ok t ∧ t.status &&& 0x04 ≠ 0 ∧
      ended.foldlM apply (s.write 0x400B 0x18) = .ok t' ∧ t'.status &&& 0x04 = 0 := by
  intro others sounding ended
  obtain ⟨start, made⟩ : ∃ start, initial 1024 = .ok start := ⟨_, rfl⟩
  have begun := isStart_of_initial made
  let s := start.write 0x4015 0x0C
  have reached : [.write 0x4015 0x0C].foldlM apply start = .ok s := rfl
  obtain ⟨-, silent, -⟩ := note_lasts begun reached .pulse1
  obtain ⟨-, -, lasts⟩ := note_lasts begun reached .triangle
  have spares (n : Nat) : ∀ op ∈ others ++ List.replicate n .clock,
      CountedVoice.triangle.Spares op := by
    have foreign : ∀ address : UInt16, address = 0x4003 ∨ address = 0x4015 →
        ∀ r, CountedVoice.triangle.owns r = true → address ≠ r.address := by
      rintro _ (rfl | rfl) r own
      all_goals
        cases r <;> cases own
        rename_i r
        cases r <;> decide
    simp only [others, List.cons_append, List.nil_append, List.forall_mem_cons]
    exact ⟨⟨foreign _ (.inl rfl), by decide⟩, ⟨foreign _ (.inr rfl), fun _ => by decide⟩, trivial,
      fun op member => List.eq_of_mem_replicate member ▸ trivial⟩
  -- What comes before the ticks brings no half frame.
  let u := (((s.write 0x400B 0x18).write 0x4003 0xFF).write 0x4015 0x04).sample.2
  have noted : s.apply (.write 0x400B 0x18) = .ok (s.write 0x400B 0x18) := rfl
  have prepared : others.foldlM apply (s.write 0x400B 0x18) = .ok u := rfl
  have none : halfFrames others (s.write 0x400B 0x18) = 0 := rfl
  have counts : u.CountsTicks 0 :=
    (((CountsTicks.of_isStart begun).run reached).apply noted).run prepared
  have written := ((((InRange.of_isStart begun).write 0x4015 0x0C).write 0x400B 0x18).write
    0x4003 0xFF).write 0x4015 0x04
  have inRange : u.InRange := ⟨written.pulse1, written.pulse2, written.bits⟩
  obtain ⟨t, ran, -⟩ := inRange.exists_clocks counts.not_overshoots 44737
  obtain ⟨t', ran', -⟩ := inRange.exists_clocks counts.not_overshoots 89491
  have sounds : sounding.foldlM apply (s.write 0x400B 0x18) = .ok t :=
    foldlM_append_eq_ok.mpr ⟨u, prepared, ran⟩
  have ends : ended.foldlM apply (s.write 0x400B 0x18) = .ok t' :=
    foldlM_append_eq_ok.mpr ⟨u, prepared, ran'⟩
  -- Half frames come in the tick after 44736 others and in the one after 89490.
  have quiet (i : Nat) (between : i < 44736 ∨ 44736 < i ∧ i < 89490) : halfDue i = false := by
    rw [halfDue, decide_eq_false_iff_not]
    simp only [List.mem_cons, List.not_mem_nil, or_false]
    omega
  have one : (List.range' 0 44737).countP halfDue = 1 :=
    countP_range'_eq_one (n := 44736) (fun i _ below => quiet i (by omega)) (by decide)
  have another : (List.range' 44737 44754).countP halfDue = 1 :=
    countP_range'_eq_one (n := 44753) (fun i _ below => quiet i (by omega)) (by decide)
  have two : (List.range' 0 89491).countP halfDue = 2 := by
    have parts : List.range' 0 89491 = List.range' 0 44737 ++ List.range' 44737 44754 :=
      (List.range'_append_1 (m := 44737) (n := 44754)).symm
    rw [parts, List.countP_append, one, another]
  have one_frame : halfFrames sounding (s.write 0x400B 0x18) = 1 := by
    rw [halfFrames_append _ prepared, none, halfFrames_clocks counts (by decide) ran, one]
  have two_frames : halfFrames ended (s.write 0x400B 0x18) = 2 := by
    rw [halfFrames_append _ prepared, none, halfFrames_clocks counts (by decide) ran', two]
  have shown : t.status &&& 0x04 ≠ 0 :=
    (lasts (by decide) 0x18 sounding t (spares 44737) sounds).mpr
      (.inr (Nat.lt_of_le_of_lt (Nat.le_of_eq one_frame) (by decide)))
  have gone : t'.status &&& 0x04 = 0 := by
    by_contra shown
    rcases (lasts (by decide) 0x18 ended t' (spares 89491) ends).mp shown with held | fewer
    · obtain ⟨switches, taps, rfl⟩ := begun.exists_eq
      cases held
    · exact absurd (Nat.lt_of_le_of_lt (Nat.le_of_eq two_frames.symm) fewer) (by decide)
  exact ⟨start, s, t, t', made, reached, (silent (by decide)).2, sounds, shown, ends, gone⟩

end Synthesizer

end Famicom.Audio
