/-!
# Dividers

Envelopes, sweeps and sequencers have a divider: a counter that counts down by one in every clock,
and that begins again at its top in the clock that finds it at zero. So it runs out as soon as it
has counted down from where it stood, and then once in as many clocks as its top says, and one more.

## Main definitions

* `DividerCount` — where a divider is after a number of clocks, and how often it has run out

## Main results

* `DividerCount.clock`, `DividerCount.exists_count` — one clock, and every number of them
* `DividerCount.times_eq`, `DividerCount.count_eq` — where it is, by the number of clocks alone
* `DividerCount.count_eq_zero_iff` — when it runs out
-/

namespace Famicom.Audio

/-- A divider that stood at `start` has run out `k` times in `n` clocks, each time beginning again
at `top`, and stands at `count`. -/
structure DividerCount (start top n k count : Nat) : Prop where
  /-- Each new beginning adds a period to what the first one left. -/
  passed : count + n = start + (top + 1) * k
  below : k ≠ 0 → count ≤ top

namespace DividerCount

variable {start top n k count : Nat}

theorem begin (start top : Nat) : DividerCount start top 0 0 start :=
  ⟨rfl, nofun⟩

/-- A clock that finds the divider at zero begins it again. -/
theorem again (h : DividerCount start top n k 0) : DividerCount start top (n + 1) (k + 1) top := by
  have passed := h.passed
  refine ⟨?_, fun _ => Nat.le_refl top⟩
  rw [Nat.mul_succ]
  omega

/-- Every other clock counts it down. -/
theorem down (h : DividerCount start top n k (count + 1)) :
    DividerCount start top (n + 1) k count := by
  have passed := h.passed
  exact ⟨by omega, fun often => Nat.le_of_succ_le (h.below often)⟩

theorem clock (h : DividerCount start top n k count) :
    DividerCount start top (n + 1) (if count = 0 then k + 1 else k)
      (if count = 0 then top else count - 1) := by
  cases count with
  | zero => exact h.again
  | succ count => exact h.down

/-- Once it has run out, a divider is where it was whole periods later. -/
theorem add_mul (h : DividerCount start top n k count) (late : start ≤ n) (j : Nat) :
    DividerCount start top (n + (top + 1) * j) (k + j) count := by
  have passed := h.passed
  refine ⟨?_, fun _ => ?_⟩
  · rw [Nat.mul_add]
    omega
  · by_cases first : k = 0
    · rw [first] at passed
      omega
    · exact h.below first

theorem exists_count (start top n : Nat) : ∃ k count, DividerCount start top n k count := by
  induction n with
  | zero => exact ⟨0, start, .begin start top⟩
  | succ n ih =>
    obtain ⟨k, count, h⟩ := ih
    exact ⟨_, _, h.clock⟩

theorem count_le_max (h : DividerCount start top n k count) : count ≤ max start top := by
  by_cases first : k = 0
  · have passed := h.passed
    rw [first] at passed
    omega
  · have below := h.below first
    omega

/-- From where it has begun again, a divider counts the clocks of its period down. -/
theorem sub_eq (h : DividerCount start top n (k + 1) count) :
    start < n ∧ n - 1 - start = (top - count) + (top + 1) * k := by
  have passed := h.passed
  have below := h.below k.succ_ne_zero
  rw [Nat.mul_succ] at passed
  omega

/-- How often a divider has run out. -/
theorem times_eq (h : DividerCount start top n k count) :
    k = if n ≤ start then 0 else 1 + (n - 1 - start) / (top + 1) := by
  cases k with
  | zero =>
    have passed := h.passed
    rw [if_pos (by omega)]
  | succ k =>
    obtain ⟨late, since⟩ := h.sub_eq
    have within : (top - count) / (top + 1) = 0 := Nat.div_eq_of_lt (by omega)
    rw [if_neg (Nat.not_le.mpr late), since, Nat.add_mul_div_left _ _ top.succ_pos, within]
    omega

/-- Where a divider is. -/
theorem count_eq (h : DividerCount start top n k count) :
    count = if n ≤ start then start - n else top - (n - 1 - start) % (top + 1) := by
  cases k with
  | zero =>
    have passed := h.passed
    rw [if_pos (by omega)]
    omega
  | succ k =>
    obtain ⟨late, since⟩ := h.sub_eq
    have below := h.below k.succ_ne_zero
    have within : (top - count) % (top + 1) = top - count := Nat.mod_eq_of_lt (by omega)
    rw [if_neg (Nat.not_le.mpr late), since, Nat.add_mul_mod_self_left, within]
    omega

/-- A divider runs out when its time is over, and then once in each of its periods. -/
theorem count_eq_zero_iff (h : DividerCount start top n k count) :
    count = 0 ↔ start ≤ n ∧ top + 1 ∣ n - start := by
  have passed := h.passed
  constructor
  · rintro rfl
    exact ⟨by omega, k, by omega⟩
  · rintro ⟨late, j, whole⟩
    -- Less than a period is left, so that what is left is none.
    have sum : count + (top + 1) * j = (top + 1) * k := by omega
    by_cases first : k = 0
    · rw [first] at sum
      omega
    · have divides : top + 1 ∣ count := by
        rw [← Nat.dvd_add_left (Nat.dvd_mul_right _ j), sum]
        exact Nat.dvd_mul_right ..
      exact Nat.eq_zero_of_dvd_of_lt divides (Nat.lt_succ_of_le (h.below first))

/-- A divider that began at its top has run out once in each of its periods. -/
theorem of_top (h : DividerCount top top n k count) :
    k = n / (top + 1) ∧ count = top - n % (top + 1) := by
  have passed := h.passed
  have below := h.count_le_max
  rw [Nat.max_self] at below
  have since : n = (top - count) + (top + 1) * k := by omega
  have within : top - count < top + 1 := by omega
  constructor
  · rw [since, Nat.add_mul_div_left _ _ top.succ_pos, Nat.div_eq_of_lt within, Nat.zero_add]
  · rw [since, Nat.add_mul_mod_self_left, Nat.mod_eq_of_lt within]
    omega

end DividerCount

end Famicom.Audio
