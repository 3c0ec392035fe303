import Famicom.Proofs.Audio.Divider
import Famicom.Proofs.Audio.PatternRotation
import Famicom.Proofs.Transition

/-!
# Sequencers in a run

The timer of a sequencer is a divider of the clocks in which the sequencer runs; clocks in which it
stands still do not count. Its pattern moves when the timer runs out: first when the timer has
counted down from where it stood, and then once in two more clocks than the reload value says, as
long as one above that value is still a word.

## Main definitions

* `Sequencer.play` — clocks in a row, some of them with the sequencer standing still
* `Sequencer.moves`, `Sequencer.after` — the moves of the pattern in a number of running clocks, and
  the sequencer after them

## Main results

* `Sequencer.clock_after` — one running clock
* `Sequencer.play_eq` — every run
* `Sequencer.play_divides` — the pattern and the bit shown after any clocks, and the period of a
  duty pattern
-/

namespace Famicom.Audio

/-- A number of moves of a pattern. -/
def Rotation.times (rotation : Rotation) : Nat → UInt16 → Except Fault UInt16
  | 0, s => .ok s
  | k + 1, s => do rotation.apply (← rotation.times k s)

theorem Rotation.times_eq (rotation : Rotation) (k : Nat) (s : UInt16) :
    rotation.times k s =
      if rotation.isDefined ∨ k = 0 then .ok (rotation.moved^[k] s)
      else .error .shiftRightOverflow := by
  induction k with
  | zero => simp [times]
  | succ k ih =>
    rw [times, ih]
    cases defined : rotation.isDefined with
    | true => simp [bind, Except.bind, apply_eq, defined, Function.iterate_succ_apply']
    | false =>
      cases k with
      | zero => simp [bind, Except.bind, apply_eq, defined]
      | succ k => simp [bind, Except.bind]

namespace Sequencer

/-- Clocks in a row, in each of which the sequencer runs or stands still. -/
def play (rotation : Rotation) (enables : List Bool) (q : Sequencer) : Except Fault Sequencer :=
  enables.foldlM (fun q enable => q.clock enable rotation) q

/-- The moves of the pattern in a number of running clocks. -/
def moves (q : Sequencer) (n : Nat) : Nat :=
  if n ≤ q.timer.toNat then 0 else 1 + (n - 1 - q.timer.toNat) / (q.reload.toNat + 2)

/-- Where the timer is after a number of running clocks. -/
def timerAfter (q : Sequencer) (n : Nat) : Nat :=
  if n ≤ q.timer.toNat then q.timer.toNat - n
  else q.reload.toNat + 1 - (n - 1 - q.timer.toNat) % (q.reload.toNat + 2)

/-- The sequencer after a number of running clocks, with what its pattern has become. -/
def after (q : Sequencer) (n : Nat) (pattern : UInt16) : Sequencer :=
  { q with
    sequence := pattern
    timer := .ofNat (q.timerAfter n)
    output := if q.moves n = 0 then q.output else (pattern &&& 0x0001).toUInt8 }

/-- The timer after one running clock. -/
def nextTimer (q : Sequencer) : UInt16 :=
  if q.timer = 0 then q.reload + 1 else q.timer - 1

variable {q : Sequencer}

theorem clock_enabled (q : Sequencer) (rotation : Rotation) :
    q.clock true rotation =
      if q.timer = 0 then
        (rotation.apply q.sequence).map fun s =>
          { q with sequence := s, timer := q.nextTimer, output := (s &&& 0x0001).toUInt8 }
      else .ok { q with timer := q.nextTimer } := by
  unfold clock nextTimer
  by_cases out : q.timer = 0
  · simp only [out, if_true]
    cases rotation.apply q.sequence <;> rfl
  · simp only [out, if_true, if_false]
    rfl

theorem reload_of_clock {enable : Bool} {rotation : Rotation} {q' : Sequencer}
    (clocked : q.clock enable rotation = .ok q') : q'.reload = q.reload := by
  unfold clock at clocked
  split at clocked
  · split at clocked
    · obtain ⟨sequence, -, made⟩ := bind_eq_ok.mp clocked
      exact Except.ok.inj made ▸ rfl
    · exact Except.ok.inj clocked ▸ rfl
  · exact Except.ok.inj clocked ▸ rfl

/-- A feedback register whose tap is in the word always moves when the timer has run out. -/
theorem clock_feedback {tap : UInt8} (inside : tap < 16) (q : Sequencer) :
    q.clock true (.feedback tap) = .ok
      (if q.timer = 0 then
        { q with
          sequence := Rotation.fedBack tap q.sequence
          timer := q.nextTimer
          output := (Rotation.fedBack tap q.sequence &&& 0x0001).toUInt8 }
      else { q with timer := q.nextTimer }) := by
  rw [clock_enabled, Rotation.apply_feedback inside]
  split <;> rfl

theorem toNat_nextTimer (room : q.reload ≤ 0xFFFE) :
    q.nextTimer.toNat =
      if q.timer.toNat = 0 then q.reload.toNat + 1 else q.timer.toNat - 1 := by
  have zero : q.timer = 0 ↔ q.timer.toNat = 0 := by
    rw [← UInt16.toNat_inj]
    rfl
  unfold nextTimer
  by_cases out : q.timer = 0
  · have small : q.reload.toNat ≤ 0xFFFE := room
    rw [if_pos out, if_pos (zero.mp out), UInt16.toNat_add]
    change (q.reload.toNat + 1) % 65536 = _
    omega
  · have positive : 1 ≤ q.timer.toNat := Nat.one_le_iff_ne_zero.mpr (mt zero.mpr out)
    rw [if_neg out, if_neg (mt zero.mpr out)]
    exact UInt16.toNat_sub_of_le _ _ (UInt16.le_iff_toNat_le.mpr positive)

/-- The timer is a divider of the running clocks. -/
theorem counted (q : Sequencer) (n : Nat) :
    DividerCount q.timer.toNat (q.reload.toNat + 1) n (q.moves n) (q.timerAfter n) := by
  obtain ⟨k, count, h⟩ := DividerCount.exists_count q.timer.toNat (q.reload.toNat + 1) n
  obtain rfl : k = q.moves n := h.times_eq
  obtain rfl : count = q.timerAfter n := h.count_eq
  exact h

theorem moves_succ (q : Sequencer) (n : Nat) :
    q.moves (n + 1) = if q.timerAfter n = 0 then q.moves n + 1 else q.moves n :=
  (q.counted n).clock.times_eq.symm

theorem timerAfter_succ (q : Sequencer) (n : Nat) :
    q.timerAfter (n + 1) = if q.timerAfter n = 0 then q.reload.toNat + 1 else q.timerAfter n - 1 :=
  (q.counted n).clock.count_eq.symm

theorem toNat_timer_after (room : q.reload ≤ 0xFFFE) (n : Nat) (pattern : UInt16) :
    (q.after n pattern).timer.toNat = q.timerAfter n := by
  have small : q.reload.toNat ≤ 0xFFFE := room
  have word := q.timer.toNat_lt
  have le := (q.counted n).count_le_max
  have fits : q.timerAfter n < 65536 := by omega
  exact UInt16.toNat_ofNat_of_lt fits

theorem after_zero (q : Sequencer) : q.after 0 q.sequence = q := by
  simp [after, timerAfter, moves]

/-- One running clock: the pattern moves if the timer has run out. -/
theorem clock_after (room : q.reload ≤ 0xFFFE) (rotation : Rotation) (n : Nat) (pattern : UInt16) :
    (q.after n pattern).clock true rotation =
      if q.timerAfter n = 0 then (rotation.apply pattern).map (q.after (n + 1))
      else .ok (q.after (n + 1) pattern) := by
  have now := q.toNat_timer_after room n pattern
  have out : (q.after n pattern).timer = 0 ↔ q.timerAfter n = 0 := by
    rw [← now, ← UInt16.toNat_inj]
    rfl
  have next : (q.after n pattern).nextTimer = .ofNat (q.timerAfter (n + 1)) := by
    have later := q.toNat_timer_after room (n + 1) pattern
    apply UInt16.toNat_inj.mp
    rw [toNat_nextTimer (q := q.after n pattern) room, now]
    exact (q.timerAfter_succ n).symm.trans later.symm
  have often := q.moves_succ n
  rw [clock_enabled, next]
  by_cases zero : q.timerAfter n = 0
  · rw [if_pos zero] at often ⊢
    rw [if_pos (out.mpr zero)]
    -- The pattern has moved once at least, so that its bit is shown.
    congr 1
    funext s
    simp [after, often]
  · rw [if_neg zero] at often ⊢
    rw [if_neg (mt out.mp zero)]
    simp [after, often]

theorem play_concat (rotation : Rotation) (enables : List Bool) (enable : Bool) :
    q.play rotation (enables ++ [enable]) =
      q.play rotation enables >>= fun q => q.clock enable rotation := by
  simp [play]

/-- A run of a sequencer moves its pattern as often as its timer runs out in the running clocks. -/
theorem play_eq (room : q.reload ≤ 0xFFFE) (rotation : Rotation) (enables : List Bool) :
    q.play rotation enables =
      (rotation.times (q.moves (enables.count true)) q.sequence).map
        (q.after (enables.count true)) := by
  induction enables using List.reverseRecOn with
  | nil =>
    have unmoved : q.moves 0 = 0 := if_pos (Nat.zero_le _)
    rw [List.count_nil, unmoved, Rotation.times, Except.map, after_zero]
    rfl
  | append_singleton enables enable ih =>
    rw [play_concat, ih, List.count_append]
    generalize enables.count true = n
    cases enable with
    | false =>
      change _ = (rotation.times (q.moves n) q.sequence).map (q.after n)
      cases rotation.times (q.moves n) q.sequence <;> rfl
    | true =>
      change _ = (rotation.times (q.moves (n + 1)) q.sequence).map (q.after (n + 1))
      rw [moves_succ]
      -- The run fails in the move that the timer brings, if not before.
      by_cases out : q.timerAfter n = 0
      · rw [if_pos out, Rotation.times]
        cases rotation.times (q.moves n) q.sequence with
        | error fault => rfl
        | ok pattern => exact (q.clock_after room rotation n pattern).trans (if_pos out)
      · rw [if_neg out]
        cases rotation.times (q.moves n) q.sequence with
        | error fault => rfl
        | ok pattern => exact (q.clock_after room rotation n pattern).trans (if_neg out)

/-- Whole periods later the pattern has moved as often as there were periods. -/
theorem moves_add_mul (q : Sequencer) {n : Nat} (late : q.timer.toNat ≤ n) (j : Nat) :
    q.moves (n + (q.reload.toNat + 2) * j) = q.moves n + j :=
  ((q.counted n).add_mul late j).times_eq.symm

theorem play_append (rotation : Rotation) (enables more : List Bool) :
    q.play rotation (enables ++ more) =
      q.play rotation enables >>= fun q => q.play rotation more :=
  List.foldlM_append

theorem play_duty (room : q.reload ≤ 0xFFFE) (enables : List Bool) :
    q.play .duty enables =
      .ok (q.after (enables.count true)
        (Rotation.turn^[q.moves (enables.count true)] q.sequence)) := by
  rw [play_eq room, Rotation.times_eq]
  rfl

/-- From when the timer has run out, a duty pattern comes back in eight periods. -/
theorem play_duty_of_periods (room : q.reload ≤ 0xFFFE) (duty : q.sequence.toNat < 2 ^ 8)
    {enables more : List Bool} (late : q.timer.toNat ≤ enables.count true)
    (whole : 8 * (q.reload.toNat + 2) ∣ more.count true) :
    ∃ q' q'', q.play .duty enables = .ok q' ∧ q'.play .duty more = .ok q'' ∧
      q''.sequence = q'.sequence := by
  obtain ⟨j, periods⟩ := whole
  have first := q.play_duty room enables
  have both := q.play_duty room (enables ++ more)
  have longer : enables.count true + more.count true =
      enables.count true + (q.reload.toNat + 2) * (8 * j) := by
    rw [periods, Nat.mul_comm 8, Nat.mul_assoc]
  have often : q.moves (enables.count true + more.count true) =
      q.moves (enables.count true) + 8 * j := by
    rw [longer]
    exact q.moves_add_mul late (8 * j)
  rw [play_append, first, List.count_append, often,
    Rotation.iterate_turn_add_mul_eight duty] at both
  exact ⟨_, _, first, both, rfl⟩

/-- **A sequencer divides its clocks.** Let the reload value of a sequencer leave room for one more,
and clock it any number of times, standing still or running. A clock in which it stands still
changes nothing. The running ones leave the pattern alone while there are no more of them than the
timer says; the next one moves it for the first time, and then it moves once in two more clocks than
the reload value says. Once it has moved, its low bit is shown. A tap beyond the word fails in the
first move, and not before; every other rotation has a result. From any time at which the timer has
run out, a duty pattern comes back after eight periods, and after every multiple of them. -/
theorem play_divides (q : Sequencer) (room : q.reload ≤ 0xFFFE) (rotation : Rotation)
    (enables : List Bool) :
    let t := q.timer.toNat
    let r := q.reload.toNat
    let n := enables.count true
    let k := if n ≤ t then 0 else 1 + (n - 1 - t) / (r + 2)
    let pattern := rotation.moved^[k] q.sequence
    (∀ other : Sequencer, other.clock false rotation = .ok other) ∧
      (∀ s, rotation.apply s =
        if rotation.isDefined then .ok (rotation.moved s) else .error .shiftRightOverflow) ∧
      (∃ timer, q.play rotation enables =
        if rotation.isDefined ∨ k = 0 then
          .ok { q with
            sequence := pattern
            timer
            output := if k = 0 then q.output else (pattern &&& 0x0001).toUInt8 }
        else .error .shiftRightOverflow) ∧
      (rotation = .duty → q.sequence.toNat < 256 → t ≤ n → ∀ more : List Bool,
        8 * (r + 2) ∣ more.count true →
          ∃ q' q'', q.play rotation enables = .ok q' ∧ q'.play rotation more = .ok q'' ∧
            q''.sequence = q'.sequence) := by
  intro t r n k pattern
  refine ⟨fun other => other.clock_disabled rotation, rotation.apply_eq,
    ⟨.ofNat (q.timerAfter n), ?_⟩, ?_⟩
  · rw [play_eq room, Rotation.times_eq]
    by_cases answers : rotation.isDefined ∨ k = 0
    · exact (congrArg (Except.map (q.after n)) (if_pos answers)).trans (if_pos answers).symm
    · exact (congrArg (Except.map (q.after n)) (if_neg answers)).trans (if_neg answers).symm
  · rintro rfl duty late more whole
    exact play_duty_of_periods room duty late whole

/-- A square of four bits, its timer above what it restarts from, moves twice in eight running
clocks, and comes back eight periods after that. -/
theorem play_divides_of_square :
    let q : Sequencer := { sequence := 0x0F, timer := 4, reload := 1 }
    let enables := [true, false, true, true, true, false, true, true, true, true]
    ∃ q' q'', q.play .duty enables = .ok q' ∧ q'.sequence = 0xC3 ∧ q'.output = 1 ∧
      q'.play .duty (List.replicate 24 true) = .ok q'' ∧ q''.sequence = 0xC3 := by
  intro q enables
  obtain ⟨-, -, ⟨timer, played⟩, periods⟩ := play_divides q (by decide) .duty enables
  obtain ⟨q', q'', first, back, same⟩ :=
    periods rfl (by decide) (by decide) (List.replicate 24 true) (by decide)
  have twice : (if enables.count true ≤ q.timer.toNat then 0
      else 1 + (enables.count true - 1 - q.timer.toNat) / (q.reload.toNat + 2)) = 2 := by
    decide
  have pattern : Rotation.duty.moved^[2] q.sequence = 0xC3 := by decide
  rw [if_pos (.inl rfl), first, twice, pattern] at played
  have moved : q'.sequence = 0xC3 := congrArg sequence (Except.ok.inj played)
  have shown : q'.output = 1 := congrArg output (Except.ok.inj played)
  exact ⟨q', q'', first, moved, shown, back, same.trans moved⟩

end Sequencer

end Famicom.Audio
