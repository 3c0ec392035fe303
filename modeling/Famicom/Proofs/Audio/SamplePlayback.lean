import Famicom.Proofs.Audio.PeriodRange
import Famicom.Proofs.Audio.Registers

/-!
# The playback of samples

What the delta modulation voice plays is a queue of bytes: those delivered, in their order, each for
eight output clocks, with silence of eight output clocks whenever the queue runs dry. A run is seen
through a log of deliveries, output clocks and direct settings of the level.

## Main definitions

* `PlaybackEvent` — what the log tells
* `stretch` — the eight output clocks of a byte, or of no byte
* `moveLevel` — what an event does to the level
* `DeltaModulation.playback` — the playback of ticks in a row
* `DeltaModulation.remaining` — the output clocks left until the buffer is looked at again
* `DeltaModulation.Follows` — the invariant, which ties log and voice
* `IsPlayback` — a log that is the playback of a queue

## Main results

* `DeltaModulation.Follows.playBit`, `DeltaModulation.Follows.deliver` — a step keeps the invariant
* `Synthesizer.isPlayback_of_run` — every run of the sound unit is the playback of a queue
-/

namespace Famicom.Audio

/-- What happens to the output of the delta modulation voice. -/
inductive PlaybackEvent where
  | delivered (byte : UInt8)
  /-- The level register was written. -/
  | levelSet (data : UInt8)
  /-- An output clock with the bit that it plays, which there is none of in silence. -/
  | played (bit : Option Bool)
  /-- After eight output clocks the buffer is looked at, and its byte is played next. -/
  | loaded (byte : Option UInt8)
  deriving DecidableEq, Repr

namespace PlaybackEvent

def delivered? : PlaybackEvent → Option UInt8
  | .delivered byte => some byte
  | _ => none

def played? : PlaybackEvent → Option (Option Bool)
  | .played bit => some bit
  | _ => none

def loaded? : PlaybackEvent → Option (Option UInt8)
  | .loaded byte => some byte
  | _ => none

end PlaybackEvent

/-- The bytes delivered, in order. -/
def deliveredBytes (log : List PlaybackEvent) : List UInt8 :=
  log.filterMap (·.delivered?)

/-- The output clocks, in order. -/
def outputs (log : List PlaybackEvent) : List (Option Bool) :=
  log.filterMap (·.played?)

/-- The bytes found in the buffer when it was looked at, in order. -/
def loads (log : List PlaybackEvent) : List (Option UInt8) :=
  log.filterMap (·.loaded?)

/-- The first output clocks of a byte, least significant bit first. -/
def bits (count : Nat) (byte : UInt8) : List (Option Bool) :=
  (List.range count).map fun i => some (byte.toNat.testBit i)

/-- The output clocks of a byte, or of no byte. -/
def stretch : Option UInt8 → List (Option Bool)
  | some byte => bits 8 byte
  | none => List.replicate 8 none

/-- The level after an event. -/
def moveLevel (level : Nat) : PlaybackEvent → Nat
  | .played (some true) => if 125 < level then level else level + 2
  | .played (some false) => if level < 2 then level else level - 2
  | .levelSet data => data.toNat % 128
  | _ => level

theorem bits_succ (count : Nat) (byte : UInt8) :
    bits (count + 1) byte = some (byte &&& 0x01 != 0) :: bits count (byte >>> 1) := by
  have half : (byte >>> 1).toNat = byte.toNat / 2 := by
    rw [UInt8.toNat_shiftRight, Nat.shiftRight_eq_div_pow]
    rfl
  have lowest : (byte &&& 0x01 != 0) = byte.toNat.testBit 0 := by
    rw [Nat.testBit_zero, bne, Bool.eq_iff_iff, decide_eq_true_iff, Bool.not_eq_true',
      beq_eq_false_iff_ne, ne_eq, ← UInt8.toNat_inj, UInt8.toNat_and]
    change ¬ byte.toNat &&& 1 = 0 ↔ _
    rw [Nat.and_one_is_mod]
    omega
  unfold bits
  rw [List.range_succ_eq_map, List.map_cons, List.map_map, lowest]
  congr 1
  refine List.map_congr_left fun i _ => ?_
  rw [Function.comp_apply, Nat.succ_eq_add_one, Nat.testBit_add_one, half]

@[simp] theorem length_stretch (byte : Option UInt8) : (stretch byte).length = 8 := by
  cases byte <;> simp [stretch, bits]

theorem length_flatMap_stretch (bytes : List (Option UInt8)) :
    (bytes.flatMap stretch).length = 8 * bytes.length := by
  induction bytes with
  | nil => rfl
  | cons byte bytes ih =>
    rw [List.flatMap_cons, List.length_append, ih, length_stretch, List.length_cons]
    omega

/-- An output clock is silent if its stretch is. -/
theorem isNone_stretches (bytes : List (Option UInt8)) (i : Nat) :
    (bytes.flatMap stretch)[i]?.map Option.isNone = bytes[i / 8]?.map Option.isNone := by
  induction bytes generalizing i with
  | nil => simp
  | cons byte bytes ih =>
    rw [List.flatMap_cons]
    by_cases here : i < 8
    · rw [List.getElem?_append_left (by rwa [length_stretch]), Nat.div_eq_of_lt here]
      cases byte with
      | none => simp [stretch, here, -List.reduceReplicate]
      | some byte => simp [stretch, bits, here]
    · rw [List.getElem?_append_right (by rw [length_stretch]; omega), length_stretch, ih,
        show i / 8 = (i - 8) / 8 + 1 by omega, List.getElem?_cons_succ]

/-- Where sound meets silence, a stretch ends. -/
theorem dvd_of_isNone_ne {bytes : List (Option UInt8)} {outputs : List (Option Bool)}
    (order : outputs <+: bytes.flatMap stretch) {i : Nat} {a b : Option Bool}
    (left : outputs[i]? = some a) (right : outputs[i + 1]? = some b)
    (differ : a.isNone ≠ b.isNone) : 8 ∣ i + 1 := by
  obtain ⟨rest, whole⟩ := order
  have lookup : ∀ {k c}, outputs[k]? = some c →
      bytes[k / 8]?.map Option.isNone = some c.isNone := by
    intro k c found
    obtain ⟨inside, -⟩ := List.getElem?_eq_some_iff.mp found
    rw [← isNone_stretches, ← whole, List.getElem?_append_left inside, found, Option.map_some]
  -- Otherwise both output clocks are in one stretch, which is silent as a whole or not at all.
  by_contra within
  have same : i / 8 = (i + 1) / 8 := by omega
  have silent := lookup left
  rw [same, lookup right] at silent
  exact differ (Option.some.inj silent).symm

/-! ### One voice -/

namespace DeltaModulation

/-- The bit that the next output clock plays. -/
def nextBit? (d : DeltaModulation) : Option Bool :=
  if d.silence then none else some (d.shifter &&& 0x01 != 0)

/-- What the next output clock adds to the log. -/
def playEvents (d : DeltaModulation) : List PlaybackEvent :=
  .played d.nextBit? :: if d.bitsRemaining = 1 then [.loaded d.buffer] else []

/-- The playback of ticks in a row, by the number of the first one: the voice alone takes part in
it. -/
def playback : Nat → UInt64 → DeltaModulation →
    Except Fault (List PlaybackEvent × DeltaModulation)
  | 0, _, d => .ok ([], d)
  | n + 1, ticks, d => do
    let due : Bool := ticks % 3 = 0
    let next ← d.tick due
    let (later, last) ← playback n (ticks + 1) next
    .ok ((if due && d.isDue then d.playEvents else []) ++ later, last)

/-- The output clocks left until the buffer is looked at again. -/
def remaining (d : DeltaModulation) : List (Option Bool) :=
  if d.silence then List.replicate d.bitsRemaining.toNat none
  else bits d.bitsRemaining.toNat d.shifter

/-- The log ends with the voice in this state: the queue is in the buffer, the stretches begun are
those of the bytes taken out of it, and the events made the level what it is. -/
structure Follows (log : List PlaybackEvent) (d : DeltaModulation) : Prop where
  queue : (loads log).filterMap id ++ d.buffer.toList = deliveredBytes log
  stretches : outputs log ++ d.remaining = (none :: loads log).flatMap stretch
  bits_pos : 0 < d.bitsRemaining.toNat
  bits_le : d.bitsRemaining.toNat ≤ 8
  level_eq : d.level.toNat = log.foldl moveLevel 0
  level_le : d.level.toNat ≤ 127

theorem toNat_nextLevel (level : UInt8) (bit : Bool) :
    (nextLevel level bit).toNat = moveLevel level.toNat (.played (some bit)) := by
  cases bit with
  | true =>
    simp only [nextLevel, moveLevel, if_true, UInt8.le_iff_toNat_le]
    change (if level.toNat ≤ 125 then level + 2 else level).toNat = _
    split
    · rw [if_neg (by omega), UInt8.toNat_add]
      change (level.toNat + 2) % 256 = _
      omega
    · rw [if_pos (by omega)]
  | false =>
    simp only [nextLevel, moveLevel, Bool.false_eq_true, if_false]
    by_cases low : 2 ≤ level
    · have low' : 2 ≤ level.toNat := UInt8.le_iff_toNat_le.mp low
      rw [if_pos low, if_neg (by omega), UInt8.toNat_sub_of_le _ _ low]
      rfl
    · have low' : ¬ 2 ≤ level.toNat := fun h => low (UInt8.le_iff_toNat_le.mpr h)
      rw [if_neg low, if_pos (by omega)]

theorem moveLevel_le {level : Nat} (h : level ≤ 127) (event : PlaybackEvent) :
    moveLevel level event ≤ 127 := by
  unfold moveLevel
  split
  · split <;> omega
  · split <;> omega
  · omega
  · exact h

/-- The voice between an output clock and the look at the buffer that may follow it. -/
def shifted (d : DeltaModulation) : DeltaModulation :=
  { d with
    level := if d.silence then d.level else nextLevel d.level (d.shifter &&& 0x01 != 0)
    shifter := d.shifter >>> 1
    bitsRemaining := d.bitsRemaining - 1 }

theorem playBit_eq {d : DeltaModulation} (bits : d.bitsRemaining ≠ 0) :
    d.playBit = .ok (if d.bitsRemaining = 1 then d.shifted.takeBuffer else d.shifted) := by
  have last : d.bitsRemaining - 1 = 0 ↔ d.bitsRemaining = 1 := by grind
  unfold playBit
  simp only [Checked.pred8_of_ne bits, bind, Except.bind, last]
  rfl

theorem toNat_level_shifted (d : DeltaModulation) :
    d.shifted.level.toNat = moveLevel d.level.toNat (.played d.nextBit?) := by
  unfold shifted nextBit?
  cases d.silence with
  | true => rfl
  | false => exact toNat_nextLevel ..

/-- An output clock takes the first of those remaining. -/
theorem remaining_eq_cons {d : DeltaModulation} (pos : 0 < d.bitsRemaining.toNat) :
    d.remaining = d.nextBit? :: d.shifted.remaining := by
  obtain ⟨count, left⟩ := Nat.exists_eq_succ_of_ne_zero (Nat.ne_of_gt pos)
  have pred : d.shifted.bitsRemaining.toNat = count := by
    change (d.bitsRemaining - 1).toNat = count
    rw [UInt8.toNat_sub_of_le _ _ (by rw [UInt8.le_iff_toNat_le]; exact pos), left]
    rfl
  have quiet : d.shifted.silence = d.silence := rfl
  rw [remaining, remaining, left, pred, quiet, nextBit?]
  cases d.silence with
  | true => rfl
  | false => exact bits_succ count d.shifter

@[simp] theorem level_takeBuffer (d : DeltaModulation) : d.takeBuffer.level = d.level := by
  unfold takeBuffer
  split <;> rfl

@[simp] theorem buffer_takeBuffer (d : DeltaModulation) : d.takeBuffer.buffer = none := by
  unfold takeBuffer
  split
  · rfl
  · assumption

@[simp] theorem remaining_takeBuffer (d : DeltaModulation) :
    d.takeBuffer.remaining = stretch d.buffer := by
  unfold takeBuffer
  split
  · rename_i byte found
    rw [found]
    rfl
  · rename_i empty
    rw [empty]
    rfl

theorem outputs_append_playEvents (log : List PlaybackEvent) (d : DeltaModulation) :
    outputs (log ++ d.playEvents) = outputs log ++ [d.nextBit?] := by
  unfold playEvents
  split <;> simp [outputs, PlaybackEvent.played?]

theorem deliveredBytes_append_playEvents (log : List PlaybackEvent) (d : DeltaModulation) :
    deliveredBytes (log ++ d.playEvents) = deliveredBytes log := by
  unfold playEvents
  split <;> simp [deliveredBytes, PlaybackEvent.delivered?]

theorem loads_append_playEvents (log : List PlaybackEvent) (d : DeltaModulation) :
    loads (log ++ d.playEvents) =
      loads log ++ if d.bitsRemaining = 1 then [d.buffer] else [] := by
  unfold playEvents
  split <;> simp [loads, PlaybackEvent.loaded?]

theorem foldl_moveLevel_playEvents (level : Nat) (d : DeltaModulation) :
    d.playEvents.foldl moveLevel level = moveLevel level (.played d.nextBit?) := by
  unfold playEvents
  split <;> rfl

theorem isSome_fetchAddress? (d : DeltaModulation) : d.fetchAddress?.isSome = d.awaitsByte := by
  unfold fetchAddress?
  split <;> simp_all

/-- A step that leaves alone what plays. -/
structure KeepsPlaying (d d' : DeltaModulation) : Prop where
  buffer : d'.buffer = d.buffer
  shifter : d'.shifter = d.shifter
  bitsRemaining : d'.bitsRemaining = d.bitsRemaining
  silence : d'.silence = d.silence
  level : d'.level = d.level

theorem keepsPlaying_setEnabled (d : DeltaModulation) (enabled : Bool) :
    d.KeepsPlaying (d.setEnabled enabled) := by
  obtain ⟨_, _, set⟩ := d.exists_setEnabled enabled
  rw [set]
  exact ⟨rfl, rfl, rfl, rfl, rfl⟩

theorem keepsPlaying_write (d : DeltaModulation) {register : Register} (data : UInt8)
    (other : register ≠ .level) : d.KeepsPlaying (d.write register data) := by
  cases register with
  | level => exact absurd rfl other
  | control | address | length => exact ⟨rfl, rfl, rfl, rfl, rfl⟩

theorem KeepsPlaying.remaining {d d' : DeltaModulation} (h : d.KeepsPlaying d') :
    d'.remaining = d.remaining := by
  rw [DeltaModulation.remaining, DeltaModulation.remaining, h.silence, h.bitsRemaining, h.shifter]

namespace Follows

variable {log : List PlaybackEvent} {d d' : DeltaModulation}

/-- The voice as it is made has a stretch of silence before it. -/
theorem initial : Follows [] ({} : DeltaModulation) where
  queue := rfl
  stretches := rfl
  bits_pos := by decide
  bits_le := by decide
  level_eq := rfl
  level_le := by decide

theorem bits_ne_zero (h : Follows log d) : d.bitsRemaining ≠ 0 := by
  intro zero
  have := h.bits_pos
  rw [zero] at this
  exact absurd this (by decide)

theorem level_shifted (h : Follows log d) :
    d.shifted.level.toNat = (log ++ d.playEvents).foldl moveLevel 0 ∧
      d.shifted.level.toNat ≤ 127 := by
  rw [List.foldl_append, ← h.level_eq, foldl_moveLevel_playEvents, toNat_level_shifted]
  exact ⟨rfl, moveLevel_le h.level_le _⟩

/-- The last output clock of a stretch, after which that of the byte in the buffer begins. -/
theorem takeBuffer_shifted (h : Follows log d) (last : d.bitsRemaining = 1) :
    Follows (log ++ d.playEvents) d.shifted.takeBuffer := by
  have spent : d.shifted.remaining = [] := by
    have none_left : d.shifted.bitsRemaining.toNat = 0 := by
      change (d.bitsRemaining - 1).toNat = 0
      rw [last]
      rfl
    unfold remaining
    rw [none_left]
    split <;> rfl
  -- So the outputs are those of whole stretches, and the byte in the buffer begins the next one.
  have stretches := h.stretches
  rw [remaining_eq_cons h.bits_pos, spent] at stretches
  obtain ⟨level_eq, level_le⟩ := h.level_shifted
  exact {
    queue := by
      rw [loads_append_playEvents, deliveredBytes_append_playEvents, if_pos last,
        List.filterMap_append, buffer_takeBuffer, ← h.queue]
      cases d.buffer <;> simp
    stretches := by
      rw [loads_append_playEvents, outputs_append_playEvents, if_pos last, remaining_takeBuffer,
        ← List.cons_append, List.flatMap_append, stretches]
      simp [shifted]
    bits_pos := by rw [bitsRemaining_takeBuffer]; decide
    bits_le := by rw [bitsRemaining_takeBuffer]; decide
    level_eq := by rw [level_takeBuffer, level_eq]
    level_le := by rwa [level_takeBuffer] }

/-- An output clock with others of its stretch to come. -/
theorem shifted (h : Follows log d) (last : d.bitsRemaining ≠ 1) :
    Follows (log ++ d.playEvents) d.shifted := by
  have pred : d.shifted.bitsRemaining.toNat = d.bitsRemaining.toNat - 1 :=
    UInt8.toNat_sub_of_le _ _ (UInt8.le_iff_toNat_le.mpr h.bits_pos)
  have several : d.bitsRemaining.toNat ≠ 1 := fun one => last (UInt8.toNat_inj.mp one)
  have pos := h.bits_pos
  have le := h.bits_le
  have stretches := h.stretches
  rw [remaining_eq_cons h.bits_pos] at stretches
  obtain ⟨level_eq, level_le⟩ := h.level_shifted
  exact {
    queue := by
      rw [loads_append_playEvents, deliveredBytes_append_playEvents, if_neg last, List.append_nil]
      exact h.queue
    stretches := by
      rw [loads_append_playEvents, outputs_append_playEvents, if_neg last, List.append_nil,
        List.append_assoc]
      exact stretches
    bits_pos := by rw [pred]; omega
    bits_le := by rw [pred]; omega
    level_eq := level_eq
    level_le := level_le }

/-- An output clock keeps log and voice together. -/
theorem playBit (h : Follows log d) :
    ∃ d', d.playBit = .ok d' ∧ Follows (log ++ d.playEvents) d' := by
  refine ⟨_, playBit_eq h.bits_ne_zero, ?_⟩
  by_cases last : d.bitsRemaining = 1
  · rw [if_pos last]
    exact h.takeBuffer_shifted last
  · rw [if_neg last]
    exact h.shifted last

theorem of_keepsPlaying (h : Follows log d) (keeps : d.KeepsPlaying d') : Follows log d' where
  queue := by rw [keeps.buffer]; exact h.queue
  stretches := by rw [keeps.remaining]; exact h.stretches
  bits_pos := by rw [keeps.bitsRemaining]; exact h.bits_pos
  bits_le := by rw [keeps.bitsRemaining]; exact h.bits_le
  level_eq := by rw [keeps.level]; exact h.level_eq
  level_le := by rw [keeps.level]; exact h.level_le

/-- A processor clock, which is an output clock when the timer runs out. -/
theorem clock (h : Follows log d) :
    ∃ d', d.clock = .ok d' ∧ Follows (log ++ if d.isDue then d.playEvents else []) d' := by
  rw [clock_eq]
  cases due : d.isDue with
  | true =>
    have reloaded : d.KeepsPlaying { d with timerCounter := d.timerPeriod } :=
      ⟨rfl, rfl, rfl, rfl, rfl⟩
    exact (h.of_keepsPlaying reloaded).playBit
  | false =>
    refine ⟨_, rfl, ?_⟩
    rw [if_neg Bool.false_ne_true, List.append_nil]
    exact h.of_keepsPlaying ⟨rfl, rfl, rfl, rfl, rfl⟩

/-- A byte delivered to an empty buffer goes to the end of the queue. -/
theorem deliver (h : Follows log d) (byte : UInt8) (empty : d.buffer = none) :
    Follows (log ++ [.delivered byte]) (d.deliver byte) := by
  -- All bytes delivered so far have been loaded, so this one is the next.
  have queue := h.queue
  rw [empty, Option.toList_none, List.append_nil] at queue
  have loaded : loads (log ++ [.delivered byte]) = loads log := by
    simp [loads, PlaybackEvent.loaded?]
  have played : outputs (log ++ [.delivered byte]) = outputs log := by
    simp [outputs, PlaybackEvent.played?]
  obtain ⟨_, _, _, delivered⟩ := d.exists_deliver byte
  rw [delivered]
  exact {
    queue := by
      rw [loaded, queue]
      simp [deliveredBytes, PlaybackEvent.delivered?]
    stretches := by rw [loaded, played]; exact h.stretches
    bits_pos := h.bits_pos
    bits_le := h.bits_le
    level_eq := by rw [List.foldl_append]; exact h.level_eq
    level_le := h.level_le }

/-- A write of the level register. -/
theorem writeLevel (h : Follows log d) (data : UInt8) :
    Follows (log ++ [.levelSet data]) (d.write .level data) := by
  have low : (data &&& 0x7F).toNat = data.toNat % 128 := by
    rw [UInt8.toNat_and]
    exact Nat.and_two_pow_sub_one_eq_mod data.toNat 7
  have loaded : loads (log ++ [.levelSet data]) = loads log := by
    simp [loads, PlaybackEvent.loaded?]
  have played : outputs (log ++ [.levelSet data]) = outputs log := by
    simp [outputs, PlaybackEvent.played?]
  have delivered : deliveredBytes (log ++ [.levelSet data]) = deliveredBytes log := by
    simp [deliveredBytes, PlaybackEvent.delivered?]
  exact {
    queue := by rw [loaded, delivered]; exact h.queue
    stretches := by rw [loaded, played]; exact h.stretches
    bits_pos := h.bits_pos
    bits_le := h.bits_le
    level_eq := by rw [List.foldl_append]; exact low
    level_le := by
      change (data &&& 0x7F).toNat ≤ 127
      omega }

end Follows

end DeltaModulation

/-! ### The sound unit -/

/-- The log is the playback of a queue of bytes, and the voice comes after it. -/
structure IsPlayback (log : List PlaybackEvent) (d : DeltaModulation) : Prop where
  /-- The bytes loaded are those delivered, in their order, but for one that is in the buffer. -/
  queue : (loads log).filterMap id ++ d.buffer.toList = deliveredBytes log
  /-- Each byte is played bit by bit in eight output clocks, as is its absence. -/
  order : outputs log <+: (none :: loads log).flatMap stretch
  /-- The buffer is looked at after every eighth output clock. -/
  eighth : (loads log).length = (outputs log).length / 8
  /-- A silence that has ended lasted a number of times eight output clocks. -/
  silence : ∀ before count bit after,
    outputs log = before ++ List.replicate count none ++ some bit :: after →
      (∀ last, before.getLast? = some last → last ≠ none) → 8 ∣ count
  /-- Nothing but the events moves the level. -/
  level_eq : d.level.toNat = log.foldl moveLevel 0
  level_le : d.level.toNat ≤ 127
  /-- The voice can be clocked again. -/
  exists_clock : ∃ d', d.clock = .ok d'

/-- Silences between sounds last a number of times eight output clocks. -/
theorem dvd_of_isPrefix_stretches {bytes : List (Option UInt8)} {outputs : List (Option Bool)}
    (order : outputs <+: bytes.flatMap stretch) {before after : List (Option Bool)} {count : Nat}
    {bit : Bool} (split : outputs = before ++ List.replicate count none ++ some bit :: after)
    (sound : ∀ last, before.getLast? = some last → last ≠ none) : 8 ∣ count := by
  cases count with
  | zero => exact Nat.dvd_zero 8
  | succ count =>
    -- The silence ends where sound begins, and begins where sound ends or at the start.
    have ends : 8 ∣ before.length + count + 1 := by
      refine dvd_of_isNone_ne (a := none) (b := some bit) order ?_ ?_ (by simp)
      · rw [split, List.append_assoc, List.getElem?_append_right (by omega)]
        simp [List.getElem?_append_left]
      · rw [split, List.getElem?_append_right (by simp; omega)]
        simp [Nat.add_assoc]
    have begins : 8 ∣ before.length := by
      rcases List.eq_nil_or_concat before with rfl | ⟨front, last, rfl⟩
      · exact Nat.dvd_zero 8
      · have heard : last ≠ none := sound last (by simp)
        rw [List.concat_eq_append, List.length_append, List.length_singleton]
        refine dvd_of_isNone_ne (a := last) (b := none) order ?_ ?_ ?_
        · rw [split]
          simp
        · rw [split]
          simp [List.replicate_succ]
        · cases last <;> simp at heard ⊢
    omega

theorem DeltaModulation.Follows.isPlayback {log : List PlaybackEvent} {d : DeltaModulation}
    (h : Follows log d) : IsPlayback log d where
  queue := h.queue
  order := ⟨d.remaining, h.stretches⟩
  eighth := by
    have length := congrArg List.length h.stretches
    have left : d.remaining.length = d.bitsRemaining.toNat := by
      unfold remaining
      split <;> simp [bits]
    have pos := h.bits_pos
    have le := h.bits_le
    rw [List.length_append, left, length_flatMap_stretch, List.length_cons] at length
    omega
  silence := fun _ _ _ _ split sound =>
    dvd_of_isPrefix_stretches ⟨d.remaining, h.stretches⟩ split sound
  level_eq := h.level_eq
  level_le := h.level_le
  exists_clock := by
    obtain ⟨d', run, -⟩ := h.clock
    exact ⟨d', run⟩

namespace Synthesizer

/-- What an operation adds to the log. -/
def playbackLog (s : Synthesizer) : Operation → List PlaybackEvent
  | .deliver byte => [.delivered byte]
  | .write address data => if address = 0x4011 then [.levelSet data] else []
  | .clock => if s.clocksDmc && s.dmc.isDue then s.dmc.playEvents else []
  | _ => []

variable {log : List PlaybackEvent} {start s s' : Synthesizer}

/-- Only the level register reaches what plays. -/
theorem keepsPlaying_write (s : Synthesizer) {address : UInt16} (data : UInt8)
    (other : address ≠ 0x4011) : s.dmc.KeepsPlaying (s.write address data).dmc := by
  unfold write
  split
  · rename_i register found
    cases register with
    | dmc r =>
      refine s.dmc.keepsPlaying_write data ?_
      rintro rfl
      exact other (Register.ofAddress?_eq_some_iff.mp found)
    | status => exact s.dmc.keepsPlaying_setEnabled _
    | pulse1 _ | pulse2 _ | triangle _ | noise _ => exact ⟨rfl, rfl, rfl, rfl, rfl⟩
  · exact ⟨rfl, rfl, rfl, rfl, rfl⟩

/-- An operation keeps log and voice together, if a byte is delivered only when one is asked for. -/
theorem follows_apply (h : s.dmc.Follows log) {op : Operation} (kept : op ≠ .reset)
    (asked : ∀ byte, op = .deliver byte → s.fetchAddress?.isSome) (run : s.apply op = .ok s') :
    s'.dmc.Follows (log ++ s.playbackLog op) := by
  cases op with
  | write address data =>
    obtain rfl := Except.ok.inj run
    by_cases level : address = 0x4011
    · subst level
      exact h.writeLevel data
    · unfold playbackLog
      dsimp only
      rw [if_neg level, List.append_nil]
      exact h.of_keepsPlaying (s.keepsPlaying_write data level)
  | clock =>
    have tick := (clock_eq_ok_iff.mp run).dmc
    unfold playbackLog
    -- The voice is clocked in every third tick, and then plays a bit if its timer runs out.
    cases due : s.clocksDmc with
    | false =>
      rw [due] at tick
      rw [Bool.false_and, if_neg Bool.false_ne_true, List.append_nil]
      exact Except.ok.inj tick ▸ h
    | true =>
      rw [due] at tick
      obtain ⟨dmc, clocked, follows⟩ := h.clock
      obtain rfl := Except.ok.inj (clocked.symm.trans tick)
      rwa [Bool.true_and]
  | deliver byte =>
    obtain rfl := Except.ok.inj run
    -- A byte is asked for only while the buffer is empty.
    have waits := asked byte rfl
    have awaits : s.dmc.awaitsByte = true := s.dmc.isSome_fetchAddress?.symm.trans waits
    have empty : s.dmc.buffer = none := by
      simp only [DeltaModulation.awaitsByte, Bool.and_eq_true, Option.isNone_iff_eq_none] at awaits
      exact awaits.1.2
    exact h.deliver byte empty
  | reset => exact absurd rfl kept
  | sample | setHeard _ _ | setTapCapacity _ | drain _ =>
    obtain rfl := Except.ok.inj run
    unfold playbackLog
    dsimp only
    rw [List.append_nil]
    exact h

theorem follows_run {ops : List Operation} (h : start.dmc.Follows log) (kept : .reset ∉ ops)
    (asked : ∀ s byte rest, Visits apply start ops s (.deliver byte :: rest) →
      s.fetchAddress?.isSome)
    (run : ops.foldlM apply start = .ok s) :
    s.dmc.Follows (log ++ runLog apply playbackLog ops start) := by
  induction ops generalizing start log with
  | nil =>
    rw [runLog, List.append_nil]
    exact foldlM_nil_eq_ok.mp run ▸ h
  | cons op ops ih =>
    obtain ⟨middle, first, rest⟩ := foldlM_cons_eq_ok.mp run
    have other : op ≠ .reset := fun same => kept (same ▸ List.mem_cons_self)
    have kept : .reset ∉ ops := fun later => kept (List.mem_cons_of_mem op later)
    have follows := follows_apply h other
      (fun byte here => asked start byte ops (here ▸ .start start _)) first
    rw [runLog_cons_of_ok ops first, ← List.append_assoc]
    refine ih follows kept ?_ rest
    intro t byte left visit
    exact asked t byte left (visits_cons.mpr (.inr ⟨middle, first, visit⟩))

theorem follows_of_isStart (h : start.IsStart) : start.dmc.Follows [] := by
  obtain ⟨switches, taps, rfl⟩ := h.exists_eq
  exact .initial

/-- **Samples are played in order.** Whatever is done to a new or reset unit short of another reset,
if a byte is delivered only when one is asked for, then the bytes delivered are played in their
order, none lost, doubled or broken off, and nothing else but the level register moves the level. -/
theorem isPlayback_of_run (h : start.IsStart) {ops : List Operation} (kept : .reset ∉ ops)
    (asked : ∀ s byte rest, Visits apply start ops s (.deliver byte :: rest) →
      s.fetchAddress?.isSome)
    (run : ops.foldlM apply start = .ok s) :
    IsPlayback (runLog apply playbackLog ops start) s.dmc := by
  simpa using (follows_run (follows_of_isStart h) kept asked run).isPlayback

theorem playback_of_clocks {n : Nat}
    (run : (List.replicate n Operation.clock).foldlM apply s = .ok s') :
    s.dmc.playback n s.ticks =
      .ok (runLog apply playbackLog (List.replicate n .clock) s, s'.dmc) := by
  induction n generalizing s with
  | zero =>
    obtain rfl := foldlM_nil_eq_ok.mp run
    rfl
  | succ n ih =>
    obtain ⟨middle, first, rest⟩ := foldlM_cons_eq_ok.mp run
    have tick := clock_eq_ok_iff.mp first
    have later := ih rest
    rw [tick.ticks] at later
    have moved : s.dmc.tick (decide (s.ticks % 3 = 0)) = .ok middle.dmc := tick.dmc
    rw [List.replicate_succ, runLog_cons_of_ok _ first, DeltaModulation.playback]
    simp only [moved, later, bind, Except.bind]
    rfl

/-- At the fastest rate, a byte is delivered to a sample that was just switched on. It is loaded
after the eight silent output clocks that come first, and three of its bits move the level up, down
and up again. -/
theorem isPlayback_of_deliver :
    let ops := [.write 0x4010 0x0F, .write 0x4015 0x10, .deliver 0xA5] ++
      List.replicate 2902 Operation.clock
    let log := .delivered 0xA5 :: (List.replicate 8 (.played none) ++ [.loaded (some 0xA5),
      .played (some true), .played (some false), .played (some true)])
    ∃ start s, initial 1024 = .ok start ∧ ops.foldlM apply start = .ok s ∧
      runLog apply playbackLog ops start = log ∧ s.dmc.level = 2 ∧ IsPlayback log s.dmc := by
  intro ops log
  obtain ⟨start, made⟩ : ∃ start, initial 1024 = .ok start := ⟨_, rfl⟩
  have begun := isStart_of_initial made
  let set := ((start.write 0x4010 0x0F).write 0x4015 0x10).deliver 0xA5
  have inRange : set.InRange := (((InRange.of_isStart begun).write _ _).write _ _).deliver _
  have aligned : set.IsAligned := begun.isAligned.of_eq rfl rfl
  have ticks : set.ticks = 0 := begun.ticks_eq
  have begins : start.dmc = {} := by
    obtain ⟨switches, taps, rfl⟩ := begun.exists_eq
    rfl
  have voice : set.dmc = ((start.dmc.write .control 0x0F).setEnabled true).deliver 0xA5 := rfl
  obtain ⟨s, ran, -⟩ := inRange.exists_clocks (aligned.not_overshoots (by rw [ticks]; decide)) 2902
  have written : [.write 0x4010 0x0F, .write 0x4015 0x10, .deliver 0xA5].foldlM apply start =
      .ok set := rfl
  have run : ops.foldlM apply start = .ok s := foldlM_append_eq_ok.mpr ⟨set, written, ran⟩
  -- No other voice needs to be looked at to see what is played.
  have played := playback_of_clocks ran
  rw [ticks, voice, begins] at played
  have evaluated : (((({} : DeltaModulation).write .control 0x0F).setEnabled true).deliver
      0xA5 |>.playback 2902 0).toOption.map (fun r => (r.1, r.2.level)) =
        some (log.tail, 2) := by
    decide +kernel
  rw [played] at evaluated
  obtain ⟨told, level⟩ :
      runLog apply playbackLog (List.replicate 2902 .clock) set = log.tail ∧ s.dmc.level = 2 :=
    Prod.mk.inj (Option.some.inj evaluated)
  have whole : runLog apply playbackLog ops start = log := by
    rw [runLog_append_of_ok _ written, told]
    rfl
  refine ⟨start, s, made, run, whole, level, whole ▸ isPlayback_of_run begun ?_ ?_ run⟩
  · intro member
    rcases List.mem_append.mp member with early | late
    · exact absurd early (by decide)
    · cases List.eq_of_mem_replicate late
  · -- The one byte that is delivered was asked for when the voice was switched on.
    intro t byte rest visit
    rcases visit.of_append with ⟨left, some_left, visit, here⟩ | ⟨_, _, visit⟩
    · rcases visits_cons.mp visit with ⟨-, rfl⟩ | ⟨s₁, first, visit⟩
      · cases here
      · obtain rfl := Except.ok.inj first
        rcases visits_cons.mp visit with ⟨-, rfl⟩ | ⟨s₂, second, visit⟩
        · cases here
        · obtain rfl := Except.ok.inj second
          rcases visits_cons.mp visit with ⟨rfl, -⟩ | ⟨s₃, -, visit⟩
          · change ((start.dmc.write .control 0x0F).setEnabled true).fetchAddress?.isSome
            rw [begins]
            rfl
          · exact absurd (visits_nil.mp visit).2 some_left
    · cases visit.eq_of_replicate

end Synthesizer

end Famicom.Audio
