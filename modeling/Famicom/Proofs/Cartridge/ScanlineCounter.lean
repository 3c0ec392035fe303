import Famicom.Arithmetic.Checked
import Famicom.Proofs.Cartridge.Mmc3Events

/-!
# The period of the counter of scanlines

The counter of an MMC3 board reloads at the scanline that finds it at zero, and counts down at every
other one. So from zero on it is at zero again once in every as many scanlines as the reload value
and one more, a reload value of zero included. What else is done to the board does not matter to the
counter, as long as it is no reset and no write to $C000–$DFFF.

Each scanline that leaves the counter at zero raises an interrupt, if the last write to $E000–$FFFF
since power-on or the last reset was one that enables them. Disabling them withdraws the one that
is pending, so that none is ever pending while they are disabled.

## Main definitions

* `Mmc3.enablesIrq` — the interrupts that a history leaves enabled
* `Mmc3.scanlines` — the number of scanlines of a run
* `Mmc3.IsSwitched` — a counter has the interrupts enabled that a history leaves so
* `Mmc3.HasCounted` — a counter was at zero a number of scanlines ago

## Main results

* `Mmc3.LineCounter.pending_after`, `Mmc3.HasCounted.after` — one event
* `Mmc3.HasCounted.exists_run` — a run that leaves the count alone
* `Mmc3.HasCounted.toNat_counter` — the counter after a number of scanlines
* `Mmc3.scanline_period` — counter and interrupts after any run from zero
-/

namespace Famicom.Board.Mmc3

/-! ### Interrupts -/

/-- Whether an event enables the interrupts or disables them, if it is a write to $E000–$FFFF. -/
def Event.switch? : Event → Option Bool
  | .enable => some true
  | .disable => some false
  | _ => none

/-- The last write to $E000–$FFFF enabled the interrupts. The history is listed latest first. -/
def enablesIrq (recent : List Operation) : Bool :=
  (recent.findSome? fun op => op.onMmc3.switch?).getD false

theorem enablesIrq_cons (op : Operation) (recent : List Operation) :
    enablesIrq (op :: recent) = op.onMmc3.switch?.getD (enablesIrq recent) := by
  unfold enablesIrq
  rw [List.findSome?_cons]
  cases op.onMmc3.switch? <;> rfl

theorem LineCounter.enabled_after (c : LineCounter) {e : Event} (running : e ≠ .reset) :
    (c.after e).enabled = e.switch?.getD c.enabled := by
  cases e with
  | reset => exact absurd rfl running
  | enable | disable | select _ | put _ | reload _ | restart | scanline | acknowledge | other => rfl

/-- An event does not leave an interrupt pending that is not enabled. -/
theorem LineCounter.pending_after {c : LineCounter} (pending : c.active = true → c.enabled = true)
    (e : Event) : (c.after e).active = true → (c.after e).enabled = true := by
  cases e with
  | enable => exact fun _ => rfl
  | disable | acknowledge | reset => nofun
  | scanline =>
    -- What raises an interrupt asks first whether they are enabled.
    simp only [LineCounter.after, LineCounter.scanline, Bool.or_eq_true, Bool.and_eq_true]
    rintro (already | ⟨-, allowed⟩)
    · exact pending already
    · exact allowed
  | select _ | put _ | reload _ | restart | other => exact pending

/-- The interrupts are enabled as a history leaves them, and none is pending while they are not. -/
structure IsSwitched (c : LineCounter) (recent : List Operation) : Prop where
  enabled : c.enabled = enablesIrq recent
  pending : c.active = true → c.enabled = true

namespace IsSwitched

variable {c : LineCounter} {recent : List Operation} {op : Operation}

theorem initial : IsSwitched {} [] :=
  ⟨rfl, nofun⟩

/-- An operation is remembered, unless it is a reset. -/
theorem after (h : IsSwitched c recent) :
    IsSwitched (c.after op.onMmc3) (if op.isReset then [] else op :: recent) := by
  rw [Operation.isReset_eq]
  by_cases reset : op.onMmc3 = .reset
  · simpa [reset, LineCounter.after] using initial
  · refine ⟨?_, LineCounter.pending_after h.pending _⟩
    rw [c.enabled_after reset, h.enabled, decide_eq_false reset, if_neg Bool.false_ne_true,
      enablesIrq_cons]

/-- After a run the interrupts are as the history since the last reset left them. -/
theorem exists_run (counts : BankCounts) (ops : List Operation) :
    ∃ b, ops.foldl Board.apply (.mmc3 (.initial counts)) = .mmc3 b ∧
      IsSwitched b.lines (sinceReset ops) :=
  Mmc3.exists_run (R := fun b recent => IsSwitched b.lines recent) .initial
    (fun switched follows => follows.lines ▸ switched.after) ops

end IsSwitched

/-! ### Counting -/

/-- The event is a reset or a write to $C000–$DFFF. -/
def Event.interferes : Event → Bool
  | .reload _ | .restart | .reset => true
  | _ => false

/-- The number of scanlines of a run. -/
def scanlines (ops : List Operation) : Nat :=
  ops.countP fun op => op.onMmc3 = .scanline

/-- A counter with this reload value was at zero some scanlines ago. It has come down to what is
missing to the next multiple of the period. -/
structure HasCounted (c : LineCounter) (reload : UInt8) (n : Nat) : Prop where
  reload_eq : c.reload = reload
  counter_le : c.counter.toNat ≤ reload.toNat
  period_dvd : reload.toNat + 1 ∣ c.counter.toNat + n

namespace HasCounted

variable {c : LineCounter} {reload : UInt8} {n : Nat}

theorem of_zero (zero : c.counter = 0) : HasCounted c c.reload 0 := by
  refine ⟨rfl, ?_, ?_⟩ <;> simp [zero]

theorem scanline (h : HasCounted c reload n) : HasCounted c.scanline reload (n + 1) := by
  obtain ⟨rfl, counter_le, period_dvd⟩ := h
  by_cases zero : c.counter = 0
  · -- The reload begins another period.
    have reloaded : c.scanline.counter = c.reload := by simp [LineCounter.scanline, zero]
    refine ⟨rfl, by rw [reloaded], ?_⟩
    have whole : c.reload.toNat + 1 ∣ n := by simpa [zero] using period_dvd
    have next : c.reload.toNat + (n + 1) = (c.reload.toNat + 1) + n := by omega
    rw [reloaded, next]
    exact (Nat.dvd_add_right (Nat.dvd_refl _)).mpr whole
  · have counted : c.scanline.counter = c.counter - 1 := by simp [LineCounter.scanline, zero]
    have pred := Checked.toNat_pred_of_ne zero
    refine ⟨rfl, ?_, ?_⟩
    · rw [counted]
      omega
    · have same : (c.counter - 1).toNat + (n + 1) = c.counter.toNat + n := by omega
      rwa [counted, same]

/-- Scanlines are counted, and nothing else shifts the counter but what interferes with it. -/
theorem after (h : HasCounted c reload n) {e : Event} (alone : e.interferes = false) :
    HasCounted (c.after e) reload (n + if e = .scanline then 1 else 0) := by
  cases e with
  | scanline => exact h.scanline
  | reload _ | restart | reset => cases alone
  | select _ | put _ | disable | enable | acknowledge | other =>
    exact ⟨h.reload_eq, h.counter_le, h.period_dvd⟩

/-- So it is over a run that leaves the count alone. -/
theorem exists_run {b : Mmc3} (h : HasCounted b.lines reload n) {ops : List Operation}
    (alone : ∀ op ∈ ops, op.onMmc3.interferes = false) :
    ∃ b', ops.foldl Board.apply (.mmc3 b) = .mmc3 b' ∧
      HasCounted b'.lines reload (n + scanlines ops) := by
  induction ops generalizing b n with
  | nil => exact ⟨b, rfl, h⟩
  | cons op ops ih =>
    obtain ⟨first, rest⟩ := List.forall_mem_cons.mp alone
    obtain ⟨b', moved, follows⟩ := b.exists_apply op
    have counted := h.after first
    rw [← follows.lines] at counted
    obtain ⟨b'', run, counted'⟩ := ih counted rest
    refine ⟨b'', by rw [List.foldl_cons, moved, run], ?_⟩
    simpa [scanlines, List.countP_cons, Nat.add_assoc, Nat.add_comm] using counted'

/-- The counter is at zero once in every period. -/
theorem counter_eq_zero_iff (h : HasCounted c reload n) :
    c.counter = 0 ↔ reload.toNat + 1 ∣ n := by
  refine ⟨?_, ?_⟩
  · intro zero
    simpa [zero] using h.period_dvd
  · intro whole
    have divided : reload.toNat + 1 ∣ c.counter.toNat := (Nat.dvd_add_left whole).mp h.period_dvd
    have none : c.counter.toNat = 0 :=
      Nat.eq_zero_of_dvd_of_lt divided (Nat.lt_succ_of_le h.counter_le)
    exact UInt8.toNat_inj.mp none

/-- The counter starts each period at its reload value and counts down. -/
theorem toNat_counter_of_pos (h : HasCounted c reload n) (some_lines : 0 < n) :
    c.counter.toNat = reload.toNat - (n - 1) % (reload.toNat + 1) := by
  have counter_le := h.counter_le
  have in_period : (n - 1) % (reload.toNat + 1) < reload.toNat + 1 := Nat.mod_lt _ (Nat.succ_pos _)
  have parts := Nat.div_add_mod (n - 1) (reload.toNat + 1)
  -- The line of the period and the counter make up one period together, or two.
  have split : c.counter.toNat + n =
      (c.counter.toNat + 1 + (n - 1) % (reload.toNat + 1)) +
        (reload.toNat + 1) * ((n - 1) / (reload.toNat + 1)) := by omega
  have period_dvd := h.period_dvd
  rw [split, Nat.dvd_add_left (Nat.dvd_mul_right ..)] at period_dvd
  have one_period : c.counter.toNat + 1 + (n - 1) % (reload.toNat + 1) = reload.toNat + 1 :=
    Nat.eq_of_dvd_of_lt_two_mul (by omega) period_dvd (by omega)
  omega

theorem toNat_counter (h : HasCounted c reload n) :
    c.counter.toNat = if n = 0 then 0 else reload.toNat - (n - 1) % (reload.toNat + 1) := by
  by_cases no_lines : n = 0
  · have whole : reload.toNat + 1 ∣ n := by simp [no_lines]
    simp [no_lines, h.counter_eq_zero_iff.mpr whole]
  · rw [if_neg no_lines]
    exact h.toNat_counter_of_pos (Nat.pos_of_ne_zero no_lines)

end HasCounted

theorem irqPending_scanline (b : Mmc3) :
    (Board.mmc3 b).scanline.irqPending =
      ((Board.mmc3 b).irqPending || (b.lines.scanline.counter = 0 && b.lines.enabled)) :=
  rfl

/-- **The counter of scanlines is periodic.** In every state that an MMC3 board can be in, a pending
interrupt implies that interrupts are enabled, and a write to an odd address in $C000–$DFFF leads to
a counter of zero. From a counter of zero on, whatever is done that is no reset and no write to
$C000–$DFFF, the counter depends on the reload value and the number of scanlines alone, and is at
zero again after each whole number of periods. The scanline that completes one raises an interrupt
if the last write to $E000–$FFFF since power-on or the last reset enabled them; no other scanline
does. -/
theorem scanline_period (counts : BankCounts) (past : List Operation) :
    ∃ b : Mmc3, past.foldl Board.apply (.mmc3 (.initial counts)) = .mmc3 b ∧
      ((Board.mmc3 b).irqPending = true → b.lines.enabled = true) ∧
      (∀ op : Operation, op.onMmc3 = .restart →
        ∃ b', Board.apply (.mmc3 b) op = .mmc3 b' ∧ b'.lines.counter = 0) ∧
      (b.lines.counter = 0 → ∀ ops : List Operation,
        (∀ op ∈ ops, op.onMmc3.interferes = false) →
          let reload := b.lines.reload.toNat
          let n := scanlines ops
          ∃ b', ops.foldl Board.apply (.mmc3 b) = .mmc3 b' ∧
            (b'.lines.counter.toNat = if n = 0 then 0 else reload - (n - 1) % (reload + 1)) ∧
            (b'.lines.counter = 0 ↔ reload + 1 ∣ n) ∧
            ((Board.mmc3 b').scanline.irqPending = true ↔
              (Board.mmc3 b').irqPending = true ∨
                reload + 1 ∣ n + 1 ∧ enablesIrq (sinceReset (past ++ ops)) = true)) := by
  obtain ⟨b, run, switched⟩ := IsSwitched.exists_run counts past
  refine ⟨b, run, switched.pending, ?_, ?_⟩
  · intro op restart
    obtain ⟨b', moved, follows⟩ := b.exists_apply op
    refine ⟨b', moved, ?_⟩
    rw [follows.lines, restart]
    rfl
  · intro zero ops alone reload n
    obtain ⟨b', run', counted⟩ := (HasCounted.of_zero zero).exists_run alone
    rw [Nat.zero_add] at counted
    -- The board is the one at the end of the whole run, past included.
    obtain ⟨b'', whole, switched'⟩ := IsSwitched.exists_run counts (past ++ ops)
    rw [List.foldl_append, run, run'] at whole
    cases whole
    refine ⟨b', run', counted.toNat_counter, counted.counter_eq_zero_iff, ?_⟩
    simp [irqPending_scanline, switched'.enabled, counted.scanline.counter_eq_zero_iff, reload, n]

/-- The counter of scanlines of an MMC3 board. -/
def lines? : Board → Option LineCounter
  | .mmc3 b => some b.lines
  | _ => none

/-- The counter is cleared in the middle of a count, and interrupts are disabled for a while after
that. -/
theorem scanline_period_of_restart :
    let counts : BankCounts := ⟨4, 8, by decide⟩
    let past : List Operation := [.cpuWrite 0xC000 0x02 0, .cpuWrite 0xE001 0x00 0, .scanline,
      .scanline, .cpuWrite 0xC001 0x00 0]
    let ops : List Operation := [.scanline, .cpuWrite 0xE000 0x00 0, .cpuWrite 0x8000 0x06 0,
      .chrRead 0x0123, .scanline, .clearIrq, .cpuWrite 0xFFFF 0x00 0]
    Operation.onMmc3 (.cpuWrite 0xDEAD 0x00 0) = .restart ∧
      (∀ op ∈ ops, op.onMmc3.interferes = false) ∧
      ∃ b : Mmc3, past.foldl Board.apply (.mmc3 (.initial counts)) = .mmc3 b ∧
        (Board.mmc3 b).irqPending = false ∧ b.lines.counter = 0 ∧
        (∃ b', Board.apply (.mmc3 b) (.cpuWrite 0xDEAD 0x00 0) = .mmc3 b' ∧ b'.lines.counter = 0) ∧
        ∃ b', ops.foldl Board.apply (.mmc3 b) = .mmc3 b' ∧ b'.lines.counter.toNat = 1 ∧
          (Board.mmc3 b').scanline.irqPending = true := by
  intro counts past ops
  have alone : ∀ op ∈ ops, op.onMmc3.interferes = false := by decide
  obtain ⟨b, run, -, restarts, counts_on⟩ := scanline_period counts past
  have left : lines? (past.foldl Board.apply (.mmc3 (.initial counts))) =
      some ⟨false, true, 0, 2⟩ := by decide
  have lines : b.lines = ⟨false, true, 0, 2⟩ :=
    Option.some.inj ((congrArg lines? run).symm.trans left)
  have zero : b.lines.counter = 0 := by rw [lines]
  obtain ⟨b', run', counter, -, raised⟩ := counts_on zero ops alone
  have two_lines : scanlines ops = 2 := by decide
  have enabled : enablesIrq (sinceReset (past ++ ops)) = true := by decide
  refine ⟨by decide, alone, b, run, ?_, zero, restarts _ (by decide), b', run', ?_, ?_⟩
  · simp [irqPending, lines]
  · simpa [lines, two_lines] using counter
  · rw [raised, lines, two_lines]
    exact .inr ⟨by decide, enabled⟩

end Famicom.Board.Mmc3
