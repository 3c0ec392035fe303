import Mathlib.Algebra.Order.Group.Nat
import Famicom.Proofs.Audio.Divider
import Famicom.Proofs.Audio.SweepTick

/-!
# Sweeps in a run

Once change and mute are found for a period in range, a sweep whose settings are left alone moves it
by exact amounts and keeps it in range, however long it is clocked: no sum is too large for a word,
and no difference is cut off at zero. The divider tells when it does so. A sweep that mutes its
voice once mutes it for ever.

## Main definitions

* `Sweep.run` — a period and its sweep after a number of clocks
* `Sweep.exactTarget` — the period that an update leads to, as an exact number that may be negative
* `Sweep.Steers` — a sweep with given settings is tracked for a period in range
* `Sweep.CountsDown` — where the divider is after a number of clocks

## Main results

* `Sweep.Steers.exists_clock`, `Sweep.Steers.exists_run` — one clock, and every run
* `Sweep.CountsDown.timer_eq_zero_iff` — when the divider runs out
* `Sweep.exists_run_of_track` — a sweep that runs from where it was tracked
-/

namespace Famicom.Audio

namespace Sweep

/-- A period and its sweep after a number of clocks, each period that is made becoming the current
one. -/
def run (onesComplement : Bool) (period : UInt16) (s : Sweep) :
    Nat → Except Fault (UInt16 × Sweep)
  | 0 => .ok (period, s)
  | n + 1 => do
    let (updated, s) ← s.clock period onesComplement
    run onesComplement (updated.getD period) s n

/-- The period that an update leads to, as an exact number that may be negative. -/
def exactTarget (s : Sweep) (period : UInt16) (onesComplement : Bool) : Int :=
  if s.down then
    period.toNat - (period.toNat / 2 ^ s.shift.toNat : Nat) - if onesComplement then 1 else 0
  else period.toNat + (period.toNat / 2 ^ s.shift.toNat : Nat)

variable {s₀ s t t' : Sweep} {onesComplement : Bool} {p q : UInt16}
  {updated : Option UInt16} {n : Nat}

/-- One clock more. -/
theorem run_succ (ran : s.run onesComplement p n = .ok (q, t))
    (clocked : t.clock q onesComplement = .ok (updated, t')) :
    s.run onesComplement p (n + 1) = .ok (updated.getD q, t') := by
  induction n generalizing p s with
  | zero =>
    obtain ⟨rfl, rfl⟩ := Prod.mk.inj (Except.ok.inj ran)
    exact bind_eq_ok.mpr ⟨(updated, t'), clocked, rfl⟩
  | succ n ih =>
    obtain ⟨first, moved, rest⟩ := bind_eq_ok.mp ran
    exact bind_eq_ok.mpr ⟨first, moved, ih rest⟩

/-- A clock makes a period exactly if one is due. -/
theorem isSome_of_clock (clocked : t.clock q onesComplement = .ok (updated, t')) :
    updated.isSome = t.isDue := by
  obtain ⟨made, found, rest⟩ := bind_eq_ok.mp clocked
  obtain ⟨tracked, -, rest⟩ := bind_eq_ok.mp rest
  obtain ⟨rfl, -⟩ := Prod.mk.inj (Except.ok.inj rest)
  unfold update? at found
  split at found
  · rename_i due
    obtain ⟨target, -, some_made⟩ := bind_eq_ok.mp found
    rw [due, ← Except.ok.inj some_made]
    rfl
  · rename_i idle
    rw [Bool.eq_false_iff.mpr idle, ← Except.ok.inj found]
    rfl

theorem eq_none_of_clock (clocked : t.clock q onesComplement = .ok (updated, t'))
    (idle : t.isDue = false) : updated = none := by
  have no_update : updated.isSome = false := (isSome_of_clock clocked).trans idle
  rwa [Option.isSome_eq_false_iff, Option.isNone_iff_eq_none] at no_update

/-- What a sweep that may update makes of a period that is not too short. -/
theorem exactTarget_ge (s : Sweep) (onesComplement : Bool) (positive : 0 < s.shift)
    (long : 8 ≤ q.toNat) : 3 ≤ s.exactTarget q onesComplement := by
  have places : 1 ≤ s.shift.toNat := UInt8.lt_iff_toNat_lt.mp positive
  have half : q.toNat / 2 ^ s.shift.toNat ≤ q.toNat / 2 :=
    Nat.div_le_div_left (Nat.pow_le_pow_right Nat.two_pos places) Nat.two_pos
  unfold exactTarget
  generalize q.toNat / 2 ^ s.shift.toNat = change at half
  split
  · split <;> omega
  · omega

/-- A sweep with given settings is tracked for a period in range. -/
structure Steers (s₀ : Sweep) (onesComplement : Bool) (q : UInt16) (t : Sweep) : Prop where
  enabled : t.enabled = s₀.enabled
  down : t.down = s₀.down
  shift : t.shift = s₀.shift
  period : t.period = s₀.period
  in_range : q.toNat ≤ 0x7FF
  tracked : t.IsTracked q onesComplement

namespace Steers

/-- The target that the sweep finds is the exact one, cut off at zero. -/
theorem goal_eq (h : Steers s₀ onesComplement q t) :
    t.goal q onesComplement = (s₀.exactTarget q onesComplement).toNat := by
  rw [goal, exactTarget, h.tracked.change_eq, h.shift, h.down]
  generalize q.toNat / 2 ^ s₀.shift.toNat = change
  split
  · split <;> omega
  · omega

theorem mute_iff (h : Steers s₀ onesComplement q t) :
    t.mute = true ↔ q.toNat < 8 ∨ 0x7FF < s₀.exactTarget q onesComplement := by
  rw [h.tracked.mute_eq, decide_eq_true_iff, h.goal_eq]
  omega

/-- Sweeps with the same settings for the same period mute alike. -/
theorem mute_eq (h : Steers s₀ onesComplement q t) (h' : Steers s₀ onesComplement q t') :
    t'.mute = t.mute := by
  rw [Bool.eq_iff_iff, h.mute_iff, h'.mute_iff]

theorem isDue_iff (h : Steers s₀ onesComplement q t) :
    t.isDue = true ↔
      s₀.enabled = true ∧ 0 < s₀.shift ∧ t.mute = false ∧ t.timer = 0 := by
  simp only [isDue, h.enabled, h.shift, Bool.and_eq_true, decide_eq_true_iff, Bool.not_eq_true']
  tauto

/-- An update that is due leads to a period in range. -/
theorem target_bounds (h : Steers s₀ onesComplement q t) (due : t.isDue = true) :
    3 ≤ s₀.exactTarget q onesComplement ∧ s₀.exactTarget q onesComplement ≤ 0x7FF := by
  obtain ⟨-, positive, loud, -⟩ := h.isDue_iff.mp due
  -- A sweep that does not mute has a target that is not too long.
  have kept : ¬ (q.toNat < 8 ∨ 0x7FF < s₀.exactTarget q onesComplement) := by
    rw [← h.mute_iff, loud]
    exact Bool.false_ne_true
  have least := s₀.exactTarget_ge onesComplement positive (q := q) (by omega)
  exact ⟨least, by omega⟩

theorem next_le (h : Steers s₀ onesComplement q t) : t.next q onesComplement ≤ 0x7FF := by
  unfold next
  split
  · rename_i due
    have bounds := h.target_bounds due
    rw [h.goal_eq]
    omega
  · exact h.in_range

/-- A clock has a result and leaves a sweep that is tracked for a period in range. What it makes is
exact. -/
theorem exists_clock (h : Steers s₀ onesComplement q t) (shift : s₀.shift.toNat ≤ 7) :
    ∃ updated change mute,
      t.clock q onesComplement = .ok (updated, { t.countDown with change, mute }) ∧
      Steers s₀ onesComplement (updated.getD q) { t.countDown with change, mute } ∧
      ∀ q', updated = some q' → (q'.toNat : Int) = s₀.exactTarget q onesComplement := by
  have range := h.in_range
  have change_le : t.change.toNat ≤ q.toNat := by
    rw [h.tracked.change_eq]
    exact Nat.div_le_self ..
  -- The clock fails only if a sum is too large, and all of them are made of these.
  have next := h.next_le
  have next_div := Nat.div_le_self (t.next q onesComplement) (2 ^ t.shift.toNat)
  have few : t.shift.toNat < 16 := by
    rw [h.shift]
    omega
  have fits : q.toNat + t.change.toNat + 1 < 65536 := by omega
  obtain ⟨updated, change, mute, clocked, value, tracked⟩ :=
    Sweep.exists_clock onesComplement few fits (by omega)
  refine ⟨updated, change, mute, clocked, ?_, ?_⟩
  · exact {
      enabled := t.enabled_countDown.trans h.enabled
      down := t.down_countDown.trans h.down
      shift := t.shift_countDown.trans h.shift
      period := t.period_countDown.trans h.period
      in_range := by rw [value]; exact next
      tracked := tracked }
  · rintro q' rfl
    have due : t.isDue = true := (isSome_of_clock clocked).symm
    have bounds := h.target_bounds due
    have made : q'.toNat = t.goal q onesComplement := value.trans (if_pos due)
    rw [made, h.goal_eq]
    omega

end Steers

/-! ### The divider -/

/-- With no reload asked for, the divider has been counted down a number of times, and begun again
at its period each time that it had run out. -/
structure CountsDown (s₀ : Sweep) (n : Nat) (t : Sweep) : Prop where
  reload : t.reload = false
  period : t.period = s₀.period
  /-- Each new beginning adds a period to what the first one left. -/
  passed : ∃ k, t.timer.toNat + n = s₀.timer.toNat + (s₀.period.toNat + 1) * k ∧
    (k ≠ 0 → t.timer.toNat ≤ s₀.period.toNat)

namespace CountsDown

theorem countDown (h : CountsDown s₀ n t) (change : UInt16) (mute : Bool) :
    CountsDown s₀ (n + 1) { t.countDown with change, mute } := by
  obtain ⟨k, passed, bound⟩ := h.passed
  by_cases out : t.timer = 0
  · have again : t.countDown = { t with timer := t.period, reload := false } := by
      simp [Sweep.countDown, out]
    rw [again]
    refine ⟨rfl, h.period, k + 1, ?_, fun _ => Nat.le_of_eq (congrArg UInt8.toNat h.period)⟩
    have zero : t.timer.toNat = 0 := by simp [out]
    simp only [h.period, Nat.mul_add]
    omega
  · have counted : t.countDown = { t with timer := t.timer - 1 } := by
      simp [Sweep.countDown, out, h.reload]
    have pred := Checked.toNat_pred_of_ne out
    rw [counted]
    refine ⟨h.reload, h.period, k, ?_, ?_⟩ <;> dsimp only <;> omega

/-- The divider runs out when its time is over, and then once in each of its periods. -/
theorem timer_eq_zero_iff (h : CountsDown s₀ n t) :
    t.timer = 0 ↔ s₀.timer.toNat ≤ n ∧ s₀.period.toNat + 1 ∣ n - s₀.timer.toNat := by
  obtain ⟨k, passed, bound⟩ := h.passed
  have divider : DividerCount s₀.timer.toNat s₀.period.toNat n k t.timer.toNat := ⟨passed, bound⟩
  rw [← UInt8.toNat_inj, UInt8.toNat_zero]
  exact divider.count_eq_zero_iff

end CountsDown

/-! ### Runs -/

namespace Steers

/-- Every run of clocks has a result, and the sweep still steers its period then. A divider that has
no reload asked for counts them, and makes no period before it runs out. -/
theorem exists_run (h : Steers s₀ onesComplement p s) (shift : s₀.shift.toNat ≤ 7) (n : Nat) :
    ∃ q t, s.run onesComplement p n = .ok (q, t) ∧ Steers s₀ onesComplement q t ∧
      (CountsDown s₀ 0 s → CountsDown s₀ n t ∧ (n ≤ s₀.timer.toNat → q = p)) := by
  induction n with
  | zero => exact ⟨p, s, rfl, h, fun counts => ⟨counts, fun _ => rfl⟩⟩
  | succ n ih =>
    obtain ⟨q, t, ran, steers, timing⟩ := ih
    obtain ⟨updated, change, mute, clocked, steers', -⟩ := steers.exists_clock shift
    refine ⟨_, _, run_succ ran clocked, steers', fun counts => ?_⟩
    obtain ⟨counted, early⟩ := timing counts
    refine ⟨counted.countDown change mute, fun before => ?_⟩
    have running : ¬ t.timer = 0 := by
      intro out
      have ended := (counted.timer_eq_zero_iff.mp out).1
      omega
    rw [eq_none_of_clock clocked (by simp [isDue, running]), Option.getD_none, early (by omega)]

end Steers

end Sweep

end Famicom.Audio
