import Mathlib.Data.List.Basic
import Mathlib.Data.Nat.Bitwise
import Famicom.Proofs.Cartridge.RegisterBits
import Famicom.Proofs.Cartridge.Run

/-!
# What the serial port of an MMC1 board reads

A program writes to the serial port of an MMC1 board one bit at a time. Writes with bit 7 set cut
what it writes into pieces, and in each piece every five writes make a group. A group commits a
value, which has one bit from each of its writes, to the register that the address of its last write
chooses. A cut commits nothing, and the writes that are left over before it are lost.

So the registers can be read off the writes alone, without looking at the shift register. They hold
what the board holds, as long as its gate is not in use.

## Main definitions

* `Mmc1.SerialWrite`, `Mmc1.Group` — a write to the serial port, and five that belong together
* `Mmc1.Command`, `Mmc1.commands` — what writes amount to
* `Mmc1.Registers.obey` — what is done on a command
* `Mmc1.layoutOfBits`, `Mmc1.layoutAfter` — the layout that a value stands for, and that of commands
* `Mmc1.HasOpen` — the shift register holds the bits of an open group

## Main results

* `Mmc1.commands_of_open`, `Mmc1.commands_of_cut`, `Mmc1.commands_of_group` — writes are read from
  the left
* `Mmc1.HasOpen.apply` — one operation of a board
* `Mmc1.registers_eq_obey_commands` — every run of a board
-/

namespace Famicom.Board

namespace Mmc1

/-! ### Groups of writes -/

/-- A write to the serial port, which is all of the upper half of memory. -/
structure SerialWrite where
  address : UInt16
  data : UInt8
  upper : 0x8000 ≤ address
  deriving DecidableEq, Repr

/-- Bit 7 is set. -/
def SerialWrite.cuts (w : SerialWrite) : Bool :=
  w.data.toNat.testBit 7

/-- Bit 0 is what a write adds to a value. -/
def SerialWrite.bit (w : SerialWrite) : Bool :=
  w.data.toNat.testBit 0

/-- Five writes that belong together. -/
abbrev Group := Vector SerialWrite 5

/-- The value that has one bit from each write, the lowest from the first. -/
def Group.value (g : Group) : UInt8 :=
  UInt8.ofNat (Nat.ofBits fun i : Fin 5 => g[i].bit)

/-- The address of the last write. -/
def Group.address (g : Group) : UInt16 :=
  g[4].address

/-- The complete groups of a piece, which may leave writes over. -/
def groups : List SerialWrite → List Group
  | a :: b :: c :: d :: e :: rest => #v[a, b, c, d, e] :: groups rest
  | _ => []

/-- What writes amount to. -/
inductive Command where
  | commit (g : Group)
  | cut
  deriving DecidableEq, Repr

/-- The complete groups of each piece between two cuts, and the cuts. -/
def commands (writes : List SerialWrite) : List Command :=
  [Command.cut].intercalate
    ((writes.splitOnP SerialWrite.cuts).map fun piece => (groups piece).map .commit)

/-! ### Commands -/

/-- The registers after a command. The eighths of the address space from the fifth on are a register
each, of which the last is a bit shorter than a value. -/
def Registers.obey (r : Registers) : Command → Registers
  | .cut => { r with control := r.control ||| 0x0C }
  | .commit g =>
    match g.address.toNat / 0x2000 with
    | 4 => { r with control := g.value }
    | 5 => { r with chr0 := g.value }
    | 6 => { r with chr1 := g.value }
    | _ => { r with prg := g.value &&& 0x0F }

/-- The value that a command commits to the control register. -/
def Command.control? : Command → Option UInt8
  | .commit g => if g.address.toNat / 0x2000 = 4 then some g.value else none
  | .cut => none

/-- The layout that the two lowest bits of a value stand for. -/
def layoutOfBits (value : UInt8) : NametableLayout :=
  match value.toNat.testBit 1, value.toNat.testBit 0 with
  | false, false => .oneScreenLower
  | false, true => .oneScreenUpper
  | true, false => .vertical
  | true, true => .horizontal

/-- The layout of the name tables is in the last value of the control register that was committed.
Before any, it is what it was. -/
def layoutAfter (before : NametableLayout) (cs : List Command) : NametableLayout :=
  match (cs.filterMap Command.control?).getLast? with
  | some value => layoutOfBits value
  | none => before

/-! ### Reading writes from the left -/

section Reading

variable {opened : List SerialWrite} {w : SerialWrite}

theorem groups_eq_nil (short : opened.length < 5) : groups opened = [] := by
  match opened, short with
  | [], _ | [_], _ | [_, _], _ | [_, _, _], _ | [_, _, _, _], _ => rfl

/-- A group that is not complete amounts to nothing. -/
theorem commands_of_open (short : opened.length < 5) (uncut : ∀ w ∈ opened, w.cuts = false) :
    commands opened = [] := by
  rw [commands, List.splitOnP_eq_singleton uncut, List.map_singleton, List.intercalate_singleton,
    groups_eq_nil short, List.map_nil]

/-- A cut discards the open group. -/
theorem commands_of_cut (short : opened.length < 5) (uncut : ∀ w ∈ opened, w.cuts = false)
    (cuts : w.cuts = true) (writes : List SerialWrite) :
    commands (opened ++ w :: writes) = .cut :: commands writes := by
  have more : (writes.splitOnP SerialWrite.cuts).map (fun piece => (groups piece).map .commit) ≠
      ([] : List (List Command)) := by
    simp only [ne_eq, List.map_eq_nil_iff]
    exact List.splitOnP_ne_nil _ _
  rw [commands, List.splitOnP_append_cons_of_forall_mem uncut w cuts, List.map_cons,
    groups_eq_nil short, List.map_nil, List.intercalate_cons_of_ne_nil more]
  rfl

/-- A complete group is committed. -/
theorem commands_of_group {a b c d e : SerialWrite} (uncut : ∀ w ∈ [a, b, c, d, e], w.cuts = false)
    (writes : List SerialWrite) :
    commands (a :: b :: c :: d :: e :: writes) = .commit #v[a, b, c, d, e] :: commands writes := by
  simp only [List.forall_mem_cons, List.not_mem_nil, false_implies, implies_true, and_true] at uncut
  obtain ⟨a_uncut, b_uncut, c_uncut, d_uncut, e_uncut⟩ := uncut
  obtain ⟨piece, pieces, split⟩ : ∃ piece pieces,
      writes.splitOnP SerialWrite.cuts = piece :: pieces :=
    List.exists_cons_of_ne_nil (List.splitOnP_ne_nil _ writes)
  -- None of the five cuts, so they come before the first piece of the rest.
  have longer : (a :: b :: c :: d :: e :: writes).splitOnP SerialWrite.cuts =
      (a :: b :: c :: d :: e :: piece) :: pieces := by
    simp only [List.splitOnP_cons_eq_if_modifyHead, split, a_uncut, b_uncut, c_uncut, d_uncut,
      e_uncut, Bool.false_eq_true, if_false, List.modifyHead_cons]
  rw [commands, commands, longer, split]
  cases pieces with
  | nil =>
    simp only [List.map_cons, List.map_nil, List.intercalate_singleton, groups]
  | cons next rest =>
    simp only [List.map_cons, List.intercalate_cons_cons, groups, List.cons_append]

end Reading

/-! ### The shift register -/

/-- The shift register after writes. -/
def ShiftRegister.after (writes : List SerialWrite) : ShiftRegister :=
  writes.foldl (fun s w => (s.push w.data).2) {}

theorem SerialWrite.cuts_eq (w : SerialWrite) : (w.data &&& 0x80 != 0) = w.cuts :=
  and_bne_zero 7 rfl w.data

theorem SerialWrite.lowest_eq (w : SerialWrite) : w.data &&& 0x01 = if w.bit then 1 else 0 := by
  have masked : (w.data &&& 0x01).toNat = w.bit.toNat * 1 := by
    rw [UInt8.toNat_and]
    exact Nat.and_two_pow w.data.toNat 0
  cases bit : w.bit <;> rw [bit] at masked <;> exact UInt8.toNat_inj.mp masked

theorem ShiftRegister.push_after_of_lt {opened : List SerialWrite} (short : opened.length < 4)
    (w : SerialWrite) : (after opened).push w.data = (none, after (opened ++ [w])) := by
  match opened, short with
  | [], _ | [_], _ | [_, _], _ | [_, _, _], _ => rfl

/-- The fifth bit completes the value of the group. -/
theorem ShiftRegister.push_after_four (a b c d e : SerialWrite) :
    (after [a, b, c, d]).push e.data = (some (Group.value #v[a, b, c, d, e]), {}) := by
  have value : Group.value #v[a, b, c, d, e] =
      UInt8.ofNat (Nat.ofBits (#v[a.bit, b.bit, c.bit, d.bit, e.bit] : Vector Bool 5).get) := rfl
  rw [value]
  -- Each write counts by its lowest bit alone, so five bits decide.
  simp only [after, List.foldl_cons, List.foldl_nil, push, Nat.reduceAdd, Nat.reduceLT, if_true,
    if_false, SerialWrite.lowest_eq]
  cases a.bit <;> cases b.bit <;> cases c.bit <;> cases d.bit <;> cases e.bit <;> rfl

/-! ### Boards -/

/-- The shift register holds the bits of an open group, and the gate is not in use. -/
structure HasOpen (b : Mmc1) (opened : List SerialWrite) : Prop where
  ungated : b.serialGate = false
  short : opened.length < 5
  uncut : ∀ w ∈ opened, w.cuts = false
  shift : b.shift = .after opened

/-- A board does what commands say. -/
structure HasObeyed (b b' : Mmc1) (cs : List Command) : Prop where
  registers : b'.registers = cs.foldl Registers.obey b.registers
  nametables : b'.nametables = layoutAfter b.nametables cs

theorem layoutAfter_append (before : NametableLayout) (cs cs' : List Command) :
    layoutAfter before (cs ++ cs') = layoutAfter (layoutAfter before cs) cs' := by
  unfold layoutAfter
  rw [List.filterMap_append, List.getLast?_append]
  cases (cs'.filterMap Command.control?).getLast? <;> rfl

theorem HasObeyed.append {b b' b'' : Mmc1} {cs cs' : List Command} (h : HasObeyed b b' cs)
    (h' : HasObeyed b' b'' cs') : HasObeyed b b'' (cs ++ cs') where
  registers := by rw [h'.registers, h.registers, List.foldl_append]
  nametables := by rw [h'.nametables, h.nametables, layoutAfter_append]

theorem Registers.put_eq_obey (r : Registers) (g : Group) :
    r.put g.address g.value = r.obey (.commit g) := by
  have upper : 0x8000 ≤ g.address := g[4].upper
  obtain ⟨first, eighth⟩ | ⟨not_first, ⟨second, eighth⟩ |
    ⟨not_second, ⟨third, eighth⟩ | ⟨not_third, eighth⟩⟩⟩ := eighth_cases upper
  · rw [put, if_pos first, obey, eighth]
    rfl
  · rw [put, if_neg not_first, if_pos second, obey, eighth]
    rfl
  · rw [put, if_neg not_first, if_neg not_second, if_pos third, obey, eighth]
    rfl
  · rw [put, if_neg not_first, if_neg not_second, if_neg not_third, obey, eighth]
    rfl

theorem nametablesOf_eq_layoutOfBits (value : UInt8) :
    nametablesOf value = layoutOfBits value := by
  have masked : value &&& 0x03 = UInt8.ofNat (value.toNat % 4) := by
    rw [← UInt8.toNat_inj, UInt8.toNat_and, UInt8.toNat_ofNat']
    change value.toNat &&& 2 ^ 2 - 1 = _
    rw [Nat.and_two_pow_sub_one_eq_mod]
    omega
  have upper : value.toNat.testBit 1 = (value.toNat % 4).testBit 1 :=
    (Nat.testBit_mod_two_pow value.toNat 2 1).symm
  have lower : value.toNat.testBit 0 = (value.toNat % 4).testBit 0 :=
    (Nat.testBit_mod_two_pow value.toNat 2 0).symm
  -- Neither side looks at more than the remainder, which has four values.
  rw [nametablesOf, layoutOfBits, masked, upper, lower]
  have small : value.toNat % 4 < 4 := Nat.mod_lt _ (by decide)
  generalize value.toNat % 4 = low at small
  match low, small with
  | 0, _ | 1, _ | 2, _ | 3, _ => rfl

theorem layoutAfter_commit (before : NametableLayout) (g : Group) :
    layoutAfter before [.commit g] =
      if g.address < 0xA000 then nametablesOf g.value else before := by
  have first_iff : g.address.toNat / 0x2000 = 4 ↔ g.address < 0xA000 := by
    have upper : 0x8000 ≤ g.address.toNat := g[4].upper
    simp only [UInt16.lt_iff_toNat_lt, UInt16.reduceToNat]
    omega
  by_cases first : g.address < 0xA000
  · have control : Command.control? (.commit g) = some g.value := if_pos (first_iff.mpr first)
    rw [layoutAfter, List.filterMap_cons_some control, if_pos first, nametablesOf_eq_layoutOfBits]
    rfl
  · have other : Command.control? (.commit g) = none := if_neg (mt first_iff.mp first)
    rw [layoutAfter, List.filterMap_cons_none other, if_neg first]
    rfl

variable {b : Mmc1} {opened : List SerialWrite}

theorem HasOpen.cut (h : b.HasOpen opened) {w : SerialWrite} (cuts : w.cuts = true)
    (step : UInt64) : (b.writeBit w.address w.data step).HasOpen [] ∧
      HasObeyed b (b.writeBit w.address w.data step) [.cut] := by
  have cleared : b.writeBit w.address w.data step = b.clearShift := by
    rw [writeBit, w.cuts_eq, cuts, if_pos rfl]
  rw [cleared]
  exact ⟨⟨h.ungated, by decide, List.forall_mem_nil _, rfl⟩, rfl, rfl⟩

/-- A write without bit 7 pushes its bit, and a value that this completes is committed. -/
theorem writeBit_of_push (ungated : b.serialGate = false) {w : SerialWrite}
    (uncut : w.cuts = false) {value? : Option UInt8} {shift : ShiftRegister}
    (pushed : b.shift.push w.data = (value?, shift)) (step : UInt64) :
    b.writeBit w.address w.data step =
      value?.elim { b with shift } ({ b with shift }.commit w.address) := by
  have passes : b.drops step = false := by rw [drops, ungated, Bool.false_and]
  cases value? <;>
    simp only [writeBit, w.cuts_eq, uncut, passes, ungated, pushed, Bool.false_eq_true, if_false,
      Option.elim_none, Option.elim_some]

theorem HasOpen.push (h : b.HasOpen opened) (room : opened.length < 4) {w : SerialWrite}
    (uncut : w.cuts = false) (step : UInt64) :
    (b.writeBit w.address w.data step).HasOpen (opened ++ [w]) ∧
      HasObeyed b (b.writeBit w.address w.data step) [] := by
  have pushed : b.shift.push w.data = (none, .after (opened ++ [w])) := by
    rw [h.shift, ShiftRegister.push_after_of_lt room]
  rw [writeBit_of_push h.ungated uncut pushed]
  refine ⟨⟨h.ungated, ?_, ?_, rfl⟩, rfl, rfl⟩
  · rw [List.length_append, List.length_singleton]
    omega
  · rw [List.forall_mem_append]
    exact ⟨h.uncut, List.forall_mem_singleton.mpr uncut⟩

theorem HasOpen.complete {a₀ a₁ a₂ a₃ w : SerialWrite} (h : b.HasOpen [a₀, a₁, a₂, a₃])
    (uncut : w.cuts = false) (step : UInt64) :
    (b.writeBit w.address w.data step).HasOpen [] ∧
      HasObeyed b (b.writeBit w.address w.data step) [.commit #v[a₀, a₁, a₂, a₃, w]] := by
  have pushed : b.shift.push w.data = (some (Group.value #v[a₀, a₁, a₂, a₃, w]), {}) := by
    rw [h.shift, ShiftRegister.push_after_four]
  rw [writeBit_of_push h.ungated uncut pushed]
  refine ⟨⟨h.ungated, by decide, List.forall_mem_nil _, rfl⟩, ?_, ?_⟩
  · exact b.registers.put_eq_obey #v[a₀, a₁, a₂, a₃, w]
  · exact (layoutAfter_commit b.nametables #v[a₀, a₁, a₂, a₃, w]).symm

end Mmc1

/-! ### Runs -/

/-- The write to the serial port that an operation is. -/
def Operation.serialWrite? : Operation → Option Mmc1.SerialWrite
  | .cpuWrite address data _ =>
    if upper : 0x8000 ≤ address then some ⟨address, data, upper⟩ else none
  | _ => none

/-- An operation that neither is a reset nor brings the gate into use. -/
def Operation.keepsPort : Operation → Bool
  | .reset => false
  | .setGate enabled => !enabled
  | _ => true

namespace Mmc1

/-- An operation that is no write to the serial port leaves it alone. -/
theorem HasOpen.apply_of_none {b : Mmc1} {opened : List SerialWrite} (h : b.HasOpen opened)
    {op : Operation} (keeps : op.keepsPort = true) (other : op.serialWrite? = none) :
    ∃ b', Board.apply (.mmc1 b) op = .mmc1 b' ∧ b'.HasOpen opened ∧ HasObeyed b b' [] := by
  cases op with
  | cpuWrite address data step =>
    have lower : ¬ 0x8000 ≤ address := by
      simpa only [Operation.serialWrite?, dite_eq_right_iff, reduceCtorEq, imp_false] using other
    simp only [Board.apply, Board.cpuWrite, Mmc1.cpuWrite, if_neg lower]
    split
    · exact ⟨_, rfl, ⟨h.ungated, h.short, h.uncut, h.shift⟩, rfl, rfl⟩
    · exact ⟨_, rfl, h, rfl, rfl⟩
  | setGate enabled =>
    have off : enabled = false := by simpa [Operation.keepsPort] using keeps
    exact ⟨_, rfl, ⟨off, h.short, h.uncut, h.shift⟩, rfl, rfl⟩
  | chrRead address =>
    refine ⟨b, ?_, h, rfl, rfl⟩
    simp only [Board.apply, Board.chrRead]
    split <;> rfl
  | loadRam image => exact ⟨_, rfl, ⟨h.ungated, h.short, h.uncut, h.shift⟩, rfl, rfl⟩
  | cpuRead _ | chrWrite _ | scanline | clearIrq => exact ⟨b, rfl, h, rfl, rfl⟩
  | reset => cases keeps

/-- A write to the serial port, whatever the open group is. -/
theorem apply_of_some {b : Mmc1} {op : Operation} {w : SerialWrite}
    (written : op.serialWrite? = some w) :
    ∃ step, Board.apply (.mmc1 b) op = .mmc1 (b.writeBit w.address w.data step) := by
  cases op with
  | cpuWrite address data step =>
    simp only [Operation.serialWrite?, Option.dite_none_right_eq_some] at written
    obtain ⟨upper, same⟩ := written
    obtain rfl := Option.some.inj same
    refine ⟨step, ?_⟩
    simp only [Board.apply, Board.cpuWrite, Mmc1.cpuWrite, if_pos upper]
  | _ => cases written

/-- One operation of a board brings the commands that it adds, and opens, extends or closes a
group. -/
theorem HasOpen.apply {b : Mmc1} {opened : List SerialWrite} (h : b.HasOpen opened)
    {op : Operation} (keeps : op.keepsPort = true) :
    ∃ b' opened' cs, Board.apply (.mmc1 b) op = .mmc1 b' ∧ b'.HasOpen opened' ∧
      HasObeyed b b' cs ∧ ∀ writes,
        commands (opened ++ (op.serialWrite?.toList ++ writes)) =
          cs ++ commands (opened' ++ writes) := by
  cases written : op.serialWrite? with
  | none =>
    obtain ⟨b', moved, still, obeyed⟩ := h.apply_of_none keeps written
    exact ⟨b', opened, [], moved, still, obeyed, fun _ => rfl⟩
  | some w =>
    obtain ⟨step, moved⟩ := apply_of_some (b := b) written
    cases cuts : w.cuts with
    | true =>
      obtain ⟨empty, obeyed⟩ := h.cut cuts step
      exact ⟨_, [], [.cut], moved, empty, obeyed, commands_of_cut h.short h.uncut cuts⟩
    | false =>
      by_cases room : opened.length < 4
      · obtain ⟨longer, obeyed⟩ := h.push room cuts step
        refine ⟨_, opened ++ [w], [], moved, longer, obeyed, fun writes => ?_⟩
        rw [List.append_assoc]
        rfl
      · have short := h.short
        obtain ⟨a₀, a₁, a₂, a₃, rfl⟩ : ∃ a₀ a₁ a₂ a₃, opened = [a₀, a₁, a₂, a₃] :=
          List.length_eq_four.mp (by omega)
        obtain ⟨empty, obeyed⟩ := h.complete cuts step
        have uncut : ∀ w' ∈ [a₀, a₁, a₂, a₃] ++ [w], w'.cuts = false :=
          List.forall_mem_append.mpr ⟨h.uncut, List.forall_mem_singleton.mpr cuts⟩
        exact ⟨_, [], [.commit #v[a₀, a₁, a₂, a₃, w]], moved, empty, obeyed,
          commands_of_group uncut⟩

/-- A board at power-on or after a reset, whose gate is not in use. -/
inductive IsFresh : Mmc1 → Prop
  | initial (banks : BankCounts) : IsFresh (.initial banks)
  | reset {b : Mmc1} (ungated : b.serialGate = false) : IsFresh b.reset

theorem IsFresh.hasOpen {b : Mmc1} (fresh : b.IsFresh) : b.HasOpen [] := by
  cases fresh with
  | initial banks => exact ⟨rfl, by decide, List.forall_mem_nil _, rfl⟩
  | reset ungated => exact ⟨ungated, by decide, List.forall_mem_nil _, rfl⟩

theorem IsFresh.registers_eq {b : Mmc1} (fresh : b.IsFresh) : b.registers = {} := by
  cases fresh <;> rfl

theorem IsFresh.nametables_eq {b : Mmc1} (fresh : b.IsFresh) : b.nametables = .horizontal := by
  cases fresh <;> rfl

/-- A run from any open group. -/
theorem HasOpen.exists_run {b : Mmc1} {opened : List SerialWrite} (h : b.HasOpen opened)
    {ops : List Operation} (keep : ∀ op ∈ ops, op.keepsPort = true) :
    ∃ b', ops.foldl Board.apply (.mmc1 b) = .mmc1 b' ∧
      HasObeyed b b' (commands (opened ++ ops.filterMap Operation.serialWrite?)) := by
  -- What an operation leaves open is read before what comes after it.
  induction ops generalizing b opened with
  | nil =>
    refine ⟨b, rfl, ?_⟩
    rw [List.filterMap_nil, List.append_nil, commands_of_open h.short h.uncut]
    exact ⟨rfl, rfl⟩
  | cons op ops ih =>
    obtain ⟨keeps, keep⟩ := List.forall_mem_cons.mp keep
    obtain ⟨b', opened', cs, moved, now, obeyed, reads⟩ := h.apply keeps
    obtain ⟨b'', run, obeyed'⟩ := ih now keep
    refine ⟨b'', by rw [List.foldl_cons, moved, run], ?_⟩
    have split : (op :: ops).filterMap Operation.serialWrite? =
        op.serialWrite?.toList ++ ops.filterMap Operation.serialWrite? := by
      cases written : op.serialWrite? with
      | none => exact List.filterMap_cons_none written
      | some w => exact List.filterMap_cons_some written
    rw [split, reads]
    exact obeyed.append obeyed'

/-- **The serial port reads groups of five.** From power-on or a reset, with the gate not in use,
the registers hold what was committed and cut, in order, and the layout of the name tables is that
of the last value of the control register that was committed, horizontal before any. -/
theorem registers_eq_obey_commands {start : Mmc1} (fresh : start.IsFresh) {ops : List Operation}
    (keep : ∀ op ∈ ops, op.keepsPort = true) :
    ∃ b, ops.foldl Board.apply (.mmc1 start) = .mmc1 b ∧
      b.registers =
        (commands (ops.filterMap Operation.serialWrite?)).foldl Registers.obey {} ∧
      b.nametables =
        layoutAfter .horizontal (commands (ops.filterMap Operation.serialWrite?)) := by
  obtain ⟨b, run, obeyed⟩ := fresh.hasOpen.exists_run keep
  refine ⟨b, run, ?_, ?_⟩
  · rw [obeyed.registers, fresh.registers_eq, List.nil_append]
  · rw [obeyed.nametables, fresh.nametables_eq, List.nil_append]

/-- Two writes that a cut discards, five that bring 5 to the first pattern register although four of
them go elsewhere, with an access of RAM between them, five that bring 2 to the control register and
so make the layout vertical, a cut that leaves it so, and one write that is left over. -/
theorem registers_eq_of_cut_and_group :
    let ops : List Operation := [.cpuWrite 0x8000 0x01 1, .cpuWrite 0x8000 0x00 2,
      .cpuWrite 0xE000 0x80 3, .cpuWrite 0x8000 0x01 4, .cpuWrite 0xFFFF 0x7E 5, .cpuRead 0x6000,
      .cpuWrite 0x6000 0x81 6, .cpuWrite 0xC000 0x03 7, .cpuWrite 0x9FFF 0x00 8, .scanline,
      .cpuWrite 0xA000 0x00 9, .cpuWrite 0xE000 0x00 10, .cpuWrite 0xA000 0x01 11,
      .cpuWrite 0xC000 0x00 12, .cpuWrite 0x8000 0x00 13, .cpuWrite 0x9FFF 0x00 14,
      .cpuWrite 0xC000 0xFF 15, .cpuWrite 0x8000 0x01 16]
    IsFresh (.initial ⟨2, 1, by decide⟩) ∧ (∀ op ∈ ops, op.keepsPort = true) ∧
      ∃ b, ops.foldl Board.apply (.mmc1 (.initial ⟨2, 1, by decide⟩)) = .mmc1 b ∧
        b.registers = ⟨0x0E, 0x05, 0x00, 0x00⟩ ∧ b.nametables = .vertical := by
  intro ops
  have keep : ∀ op ∈ ops, op.keepsPort = true := by
    simp only [ops, List.forall_mem_cons, Operation.keepsPort, List.not_mem_nil, false_implies,
      implies_true, and_true]
  obtain ⟨b, run, registers, nametables⟩ := registers_eq_obey_commands (.initial _) keep
  exact ⟨.initial _, keep, b, run, registers.trans (by decide), nametables.trans (by decide)⟩

end Mmc1

end Famicom.Board
