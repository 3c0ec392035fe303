import Famicom.Proofs.Cartridge.PowerOn
import Famicom.Proofs.Cartridge.SerialPort

/-!
# The gate of the serial port

With its gate in use, an MMC1 board behaves like one without a gate that is shown fewer writes. The
writes that are kept from it are found by a rule that goes by the latest bit that was accepted since
power-on or the last reset: the gate is there to drop a bit that the very next instruction writes.

The board remembers the instruction that wrote that bit, and nothing else. When no bit was accepted
it remembers instruction zero, so that it also drops a bit that instruction one writes, although it
follows none. The two rules let the same operations through exactly if no first bit, after power-on
or a reset, is written by instruction one.

## Main definitions

* `Board.GateEvent`, `Board.Operation.onGate` — what an operation is to the gate
* `Board.GateRule`, `Board.GateRule.passing` — a rule, and the operations that it lets through
* `Board.GateRule.adjacent`, `Board.GateRule.remembered` — the rule as it is meant, and the one of
  the board
* `Board.Mmc1.ungated` — a board with its gate taken out
* `Board.Mmc1.HidesDropped` — the gate works by a rule

## Main results

* `Board.GateRule.passing_eq_iff` — when the rules let the same operations through
* `Board.Mmc1.IsGated.apply_of_passed` — an operation that is let through
* `Board.Mmc1.gate_hides_dropped` — runs with the gate in use
-/

namespace Famicom.Board

/-! ### Rules -/

/-- What can be told to the gate. -/
inductive GateEvent where
  /-- An instruction writes a bit to the serial port. -/
  | bit (step : UInt64)
  | reset
  | other
  deriving DecidableEq, Repr

/-- What an operation is to the gate. A write with bit 7 set brings no bit. -/
def Operation.onGate : Operation → GateEvent
  | .cpuWrite address data step =>
    if 0x8000 ≤ address ∧ data &&& 0x80 = 0 then .bit step else .other
  | .reset => .reset
  | _ => .other

/-- Which bits to drop, by the instruction that wrote the latest accepted bit since power-on or the
last reset. -/
abbrev GateRule := Option UInt64 → UInt64 → Bool

namespace GateRule

/-- A bit is dropped if it directly follows the latest one that was accepted. -/
def adjacent : GateRule
  | some last, step => step == last + 1
  | none, _ => false

/-- The rule of the board, which remembers instruction zero when no bit was accepted. -/
def remembered : GateRule
  | some last, step => step == last + 1
  | none, step => step == 0 + 1

/-- The operations that a rule lets through. -/
def passing (rule : GateRule) : Option UInt64 → List Operation → List Operation
  | _, [] => []
  | latest, op :: ops =>
    match op.onGate with
    | .bit step =>
      if rule latest step then passing rule latest ops else op :: passing rule (some step) ops
    | .reset => op :: passing rule none ops
    | .other => op :: passing rule latest ops

end GateRule

/-- The instructions that write the first bits: those after resets, and before any reset that of the
first bit of all if none was written before. -/
def firstSteps (bare : Bool) : List Operation → List UInt64
  | [] => []
  | op :: ops =>
    match op.onGate with
    | .bit step => (if bare then [step] else []) ++ firstSteps false ops
    | .reset => firstSteps true ops
    | .other => firstSteps bare ops

namespace GateRule

variable {rule : GateRule} {latest : Option UInt64} {op : Operation} {ops : List Operation}
  {step : UInt64}

theorem passing_cons_of_dropped (event : op.onGate = .bit step) (drops : rule latest step = true) :
    rule.passing latest (op :: ops) = rule.passing latest ops := by
  rw [passing, event]
  exact if_pos drops

theorem passing_cons_of_accepted (event : op.onGate = .bit step)
    (accepts : rule latest step = false) :
    rule.passing latest (op :: ops) = op :: rule.passing (some step) ops := by
  rw [passing, event]
  exact if_neg (by rw [accepts]; nofun)

theorem passing_cons_of_reset (event : op.onGate = .reset) :
    rule.passing latest (op :: ops) = op :: rule.passing none ops := by
  rw [passing, event]

theorem passing_cons_of_other (event : op.onGate = .other) :
    rule.passing latest (op :: ops) = op :: rule.passing latest ops := by
  rw [passing, event]

/-- With no bit accepted, the first operation that the board lets through is no bit of instruction
one. -/
theorem passing_remembered_ne_cons (first : op.onGate = .bit 1) (ops rest : List Operation) :
    remembered.passing none ops ≠ op :: rest := by
  induction ops with
  | nil => nofun
  | cons next ops ih =>
    -- What is let through at the head is `next`, which would have to be that bit.
    cases event : next.onGate with
    | bit step =>
      cases drops : remembered none step with
      | true =>
        rw [passing_cons_of_dropped event drops]
        exact ih
      | false =>
        rw [passing_cons_of_accepted event drops]
        intro same
        rw [(List.cons.inj same).1, first] at event
        obtain rfl := GateEvent.bit.inj event
        cases drops
    | reset =>
      rw [passing_cons_of_reset event]
      intro same
      rw [(List.cons.inj same).1, first] at event
      cases event
    | other =>
      rw [passing_cons_of_other event]
      intro same
      rw [(List.cons.inj same).1, first] at event
      cases event

/-- The rules let the same operations through exactly if no first bit is written by instruction
one. -/
theorem passing_eq_iff (latest : Option UInt64) (ops : List Operation) :
    adjacent.passing latest ops = remembered.passing latest ops ↔
      1 ∉ firstSteps latest.isNone ops := by
  induction ops generalizing latest with
  | nil => exact iff_of_true rfl List.not_mem_nil
  | cons op ops ih =>
    cases event : op.onGate with
    | reset =>
      rw [passing_cons_of_reset event, passing_cons_of_reset event, List.cons_inj_right, ih,
        firstSteps, event]
      rfl
    | other =>
      rw [passing_cons_of_other event, passing_cons_of_other event, List.cons_inj_right, ih,
        firstSteps, event]
    | bit step =>
      rw [firstSteps, event]
      cases latest with
      | some last =>
        -- The rules differ only where no bit was accepted.
        cases drops : adjacent (some last) step with
        | true =>
          have same : remembered (some last) step = true := drops
          rw [passing_cons_of_dropped event drops, passing_cons_of_dropped event same, ih]
          rfl
        | false =>
          have same : remembered (some last) step = false := drops
          rw [passing_cons_of_accepted event drops, passing_cons_of_accepted event same,
            List.cons_inj_right, ih]
          rfl
      | none =>
        have meant : adjacent none step = false := rfl
        rw [passing_cons_of_accepted event meant]
        by_cases one : step = 1
        · subst one
          rw [passing_cons_of_dropped event rfl]
          exact iff_of_false (fun same => passing_remembered_ne_cons event ops _ same.symm)
            fun absent => absent (List.mem_cons_self ..)
        · have accepts : remembered none step = false := beq_eq_false_iff_ne.mpr one
          rw [passing_cons_of_accepted event accepts, List.cons_inj_right, ih]
          exact not_congr ⟨List.mem_cons_of_mem _, List.mem_of_ne_of_mem (Ne.symm one)⟩

end GateRule

/-! ### Boards -/

theorem Operation.onGate_eq_bit_iff {op : Operation} {step : UInt64} :
    op.onGate = .bit step ↔
      ∃ address data, op = .cpuWrite address data step ∧ 0x8000 ≤ address ∧ data &&& 0x80 = 0 := by
  cases op with
  | cpuWrite address data step' =>
    unfold onGate
    dsimp only
    split
    · rename_i bit
      constructor
      · intro same
        obtain rfl := GateEvent.bit.inj same
        exact ⟨address, data, rfl, bit⟩
      · rintro ⟨address', data', same, -⟩
        cases same
        rfl
    · rename_i no_bit
      refine iff_of_false nofun ?_
      rintro ⟨address', data', same, bit⟩
      cases same
      exact no_bit bit
  | reset => exact iff_of_false nofun nofun
  | cpuRead _ | chrRead _ | chrWrite _ | scanline | clearIrq | setGate _ | loadRam _ =>
    exact iff_of_false nofun nofun

/-- The latest accepted bit after an operation that was let through. -/
def GateEvent.latestAfter (latest : Option UInt64) : GateEvent → Option UInt64
  | .bit step => some step
  | .reset => none
  | .other => latest

namespace Mmc1

variable {b : Mmc1} {latest : Option UInt64} {op : Operation} {step : UInt64}

/-- A board with its gate taken out, as if it had never been there. -/
def ungated (b : Mmc1) : Mmc1 :=
  { b with serialGate := false, lastStep := 0 }

/-- No access shows the gate. -/
theorem view_ungated (b : Mmc1) : (Board.mmc1 b.ungated).view = (Board.mmc1 b).view := by
  refine View.ext rfl rfl ?cpuWrite ?chrRead rfl rfl rfl rfl rfl
  case cpuWrite =>
    funext address data step
    simp only [view, cpuWriteChecked, map_afterProducts, cpuWriteProducts, Board.cpuWrite,
      Mmc1.cpuWrite]
    split_ifs <;> rfl
  case chrRead =>
    funext address
    simp only [view, chrReadChecked, map_afterProducts, chrReadProducts, chrRead]
    split <;> rfl

/-- The gate is in use, and remembers the latest accepted bit. -/
structure IsGated (b : Mmc1) (latest : Option UInt64) : Prop where
  gated : b.serialGate = true
  lastStep : b.lastStep = latest.getD 0

theorem IsGated.drops_eq (h : b.IsGated latest) (step : UInt64) :
    b.drops step = GateRule.remembered latest step := by
  rw [drops, h.gated, h.lastStep, Bool.true_and]
  cases latest <;> rfl

/-- A write with bit 7 set goes past the gate. -/
theorem writeBit_of_cut {data : UInt8} (cuts : data &&& 0x80 ≠ 0) (address : UInt16)
    (step : UInt64) : b.writeBit address data step = b.clearShift :=
  if_pos (bne_iff_ne.mpr cuts)

/-- A bit that is let through is noted, and else does what it does without a gate. -/
theorem writeBit_of_accepted (gated : b.serialGate = true) (passes : b.drops step = false)
    {data : UInt8} (bit : data &&& 0x80 = 0) (address : UInt16) :
    (b.writeBit address data step).serialGate = true ∧
      (b.writeBit address data step).lastStep = step ∧
      b.ungated.writeBit address data step = (b.writeBit address data step).ungated := by
  obtain ⟨banks, ram, shift, registers, windows, nametables, serialGate, lastStep⟩ := b
  obtain rfl : serialGate = true := gated
  have no_cut : (data &&& 0x80 != 0) = false := by rw [bit]; rfl
  have opened : drops ⟨banks, ram, shift, registers, windows, nametables, false, 0⟩ step = false :=
    rfl
  simp only [writeBit, ungated, no_cut, passes, opened, Bool.false_eq_true, if_false, if_true]
  rcases shift.push data with ⟨_ | value, shift⟩ <;> exact ⟨rfl, rfl, rfl⟩

/-- The gate leaves the board alone where it drops a bit. -/
theorem IsGated.apply_of_dropped (h : b.IsGated latest) (event : op.onGate = .bit step)
    (drops : GateRule.remembered latest step = true) : Board.apply (.mmc1 b) op = .mmc1 b := by
  obtain ⟨address, data, rfl, upper, bit⟩ := Operation.onGate_eq_bit_iff.mp event
  have no_cut : (data &&& 0x80 != 0) = false := by rw [bit]; rfl
  have kept : b.writeBit address data step = b := by
    rw [writeBit, no_cut, h.drops_eq, drops]
    rfl
  rw [Board.apply, Board.cpuWrite, Mmc1.cpuWrite, if_pos upper, kept]

/-- What is let through does the same with and without a gate. -/
theorem IsGated.apply_of_passed (h : b.IsGated latest) (fixed : ∀ enabled, op ≠ .setGate enabled)
    (passes : ∀ step, op.onGate = .bit step → GateRule.remembered latest step = false) :
    ∃ b', Board.apply (.mmc1 b) op = .mmc1 b' ∧ b'.IsGated (op.onGate.latestAfter latest) ∧
      Board.apply (.mmc1 b.ungated) op = .mmc1 b'.ungated := by
  cases op with
  | cpuWrite address data step =>
    simp only [Board.apply, Board.cpuWrite, Mmc1.cpuWrite]
    by_cases upper : 0x8000 ≤ address
    · rw [if_pos upper, if_pos upper]
      by_cases bit : data &&& 0x80 = 0
      · have event : Operation.onGate (.cpuWrite address data step) = .bit step :=
          if_pos ⟨upper, bit⟩
        rw [event]
        obtain ⟨gated, noted, same⟩ :=
          writeBit_of_accepted h.gated ((h.drops_eq step).trans (passes step event)) bit address
        exact ⟨_, rfl, ⟨gated, noted⟩, congrArg Board.mmc1 same⟩
      · have event : Operation.onGate (.cpuWrite address data step) = .other :=
          if_neg fun both => bit both.2
        rw [event, writeBit_of_cut bit, writeBit_of_cut bit]
        exact ⟨_, rfl, ⟨h.gated, h.lastStep⟩, rfl⟩
    · have event : Operation.onGate (.cpuWrite address data step) = .other :=
        if_neg fun both => upper both.1
      rw [if_neg upper, if_neg upper, event]
      split
      · exact ⟨_, rfl, ⟨h.gated, h.lastStep⟩, rfl⟩
      · exact ⟨b, rfl, h, rfl⟩
  | reset => exact ⟨b.reset, rfl, ⟨h.gated, rfl⟩, rfl⟩
  | chrRead address =>
    refine ⟨b, ?_, h, ?_⟩ <;> simp only [Board.apply, Board.chrRead] <;> split <;> rfl
  | loadRam image => exact ⟨{ b with ram := b.ram.load image }, rfl, ⟨h.gated, h.lastStep⟩, rfl⟩
  | cpuRead _ | chrWrite _ | scanline | clearIrq => exact ⟨b, rfl, h, rfl⟩
  | setGate enabled => exact absurd rfl (fixed enabled)

/-! ### Runs -/

/-- A run with the gate in use does what the operations that the board lets through do without
it. -/
theorem IsGated.exists_run (h : b.IsGated latest) {ops : List Operation}
    (fixed : ∀ op ∈ ops, ∀ enabled, op ≠ .setGate enabled) :
    ∃ b', ops.foldl Board.apply (.mmc1 b) = .mmc1 b' ∧
      (GateRule.remembered.passing latest ops).foldl Board.apply (.mmc1 b.ungated) =
        .mmc1 b'.ungated := by
  induction ops generalizing b latest with
  | nil => exact ⟨b, rfl, rfl⟩
  | cons op ops ih =>
    obtain ⟨fixed_op, fixed⟩ := List.forall_mem_cons.mp fixed
    have of_passed (passes : ∀ step, op.onGate = .bit step →
          GateRule.remembered latest step = false)
        (let_through : GateRule.remembered.passing latest (op :: ops) =
          op :: GateRule.remembered.passing (op.onGate.latestAfter latest) ops) :
        ∃ b', (op :: ops).foldl Board.apply (.mmc1 b) = .mmc1 b' ∧
          (GateRule.remembered.passing latest (op :: ops)).foldl Board.apply (.mmc1 b.ungated) =
            .mmc1 b'.ungated := by
      obtain ⟨b', moved, gated, same⟩ := h.apply_of_passed fixed_op passes
      obtain ⟨b'', run, same_run⟩ := ih gated fixed
      exact ⟨b'', by rw [List.foldl_cons, moved, run],
        by rw [let_through, List.foldl_cons, same, same_run]⟩
    cases event : op.onGate with
    | bit step =>
      cases drops : GateRule.remembered latest step with
      | true =>
        obtain ⟨b', run, same_run⟩ := ih h fixed
        exact ⟨b', by rw [List.foldl_cons, h.apply_of_dropped event drops, run],
          by rw [GateRule.passing_cons_of_dropped event drops, same_run]⟩
      | false =>
        refine of_passed ?_ (by rw [GateRule.passing_cons_of_accepted event drops, event]; rfl)
        intro step' same
        obtain rfl := GateEvent.bit.inj (event.symm.trans same)
        exact drops
    | reset =>
      exact of_passed (fun step same => by rw [event] at same; cases same)
        (by rw [GateRule.passing_cons_of_reset event, event]; rfl)
    | other =>
      exact of_passed (fun step same => by rw [event] at same; cases same)
        (by rw [GateRule.passing_cons_of_other event, event]; rfl)

/-- From power-on, what is done to a board with the gate in use ends like what a rule lets through
does to a board without a gate: in the same registers and the same shift register, and with the same
answers to every access. -/
def HidesDropped (rule : GateRule) (banks : BankCounts) (ops : List Operation) : Prop :=
  ∃ gated ungated, ops.foldl Board.apply ((Board.mmc1 (.initial banks)).setGate true) =
      .mmc1 gated ∧
    (rule.passing none ops).foldl Board.apply (.mmc1 (.initial banks)) = .mmc1 ungated ∧
    gated.registers = ungated.registers ∧ gated.shift = ungated.shift ∧
    (Board.mmc1 gated).view = (Board.mmc1 ungated).view

/-- **The gate hides what it drops.** With the gate in use from power-on, whatever is done to a
board, it ends like a board without a gate to which only the operations are done that the rule of
the board lets through. If no first bit, after power-on or a reset, is written by instruction one,
these are the operations that are let through when only bits are dropped that directly follow the
latest accepted one; otherwise they are not. -/
theorem gate_hides_dropped (banks : BankCounts) {ops : List Operation}
    (fixed : ∀ op ∈ ops, ∀ enabled, op ≠ .setGate enabled) :
    HidesDropped .remembered banks ops ∧
      (GateRule.adjacent.passing none ops = GateRule.remembered.passing none ops ↔
        1 ∉ firstSteps true ops) ∧
      (1 ∉ firstSteps true ops → HidesDropped .adjacent banks ops) := by
  have start : IsGated { Mmc1.initial banks with serialGate := true } none := ⟨rfl, rfl⟩
  obtain ⟨b, run, same_run⟩ := start.exists_run fixed
  have hides : HidesDropped .remembered banks ops :=
    ⟨b, b.ungated, run, same_run, rfl, rfl, b.view_ungated.symm⟩
  have rules := GateRule.passing_eq_iff none ops
  refine ⟨hides, rules, ?_⟩
  intro absent
  unfold HidesDropped at hides ⊢
  rw [rules.mpr absent]
  exact hides

/-- A bit that directly follows another is dropped, and the next one is not. -/
theorem gate_hides_dropped_of_adjacent :
    let bit (data : UInt8) (step : UInt64) : Operation := .cpuWrite 0xE000 data step
    let ops := [bit 1 10, bit 1 11, bit 0 12, .reset, bit 1 20, .cpuWrite 0x6000 0x7F 21,
      bit 0x80 21, bit 0 22]
    (∀ op ∈ ops, ∀ enabled, op ≠ .setGate enabled) ∧ 1 ∉ firstSteps true ops ∧
      GateRule.adjacent.passing none ops =
        [bit 1 10, bit 0 12, .reset, bit 1 20, .cpuWrite 0x6000 0x7F 21, bit 0x80 21, bit 0 22] ∧
      HidesDropped .adjacent ⟨2, 1, by decide⟩ ops := by
  intro bit ops
  have fixed : ∀ op ∈ ops, ∀ enabled, op ≠ .setGate enabled := by
    simp [ops, bit]
  have absent : 1 ∉ firstSteps true ops := by decide
  obtain ⟨-, -, hides⟩ := gate_hides_dropped ⟨2, 1, by decide⟩ fixed
  exact ⟨fixed, absent, rfl, hides absent⟩

/-- The board drops a first bit that instruction one writes, although it follows none. -/
theorem gate_drops_first_bit :
    let ops : List Operation := [.cpuWrite 0xE000 0x01 1]
    (∀ op ∈ ops, ∀ enabled, op ≠ .setGate enabled) ∧ GateRule.adjacent.passing none ops = ops ∧
      ¬ HidesDropped .adjacent ⟨2, 1, by decide⟩ ops := by
  intro ops
  refine ⟨by simp [ops], rfl, ?_⟩
  rintro ⟨gated, ungated, run, same_run, -, shift, -⟩
  have dropped : gated.shift = ⟨0, 0⟩ := by
    cases run
    rfl
  have accepted : ungated.shift = ⟨0x10, 1⟩ := by
    cases same_run
    rfl
  rw [dropped, accepted] at shift
  cases shift

end Mmc1

end Famicom.Board
