import Mathlib.Data.List.DropRight
import Famicom.Proofs.Audio.Listening

/-!
# What the taps hold

A tap holds the samples of its voice that came last, as many as its room and the drains have left
it. The number of them grows by one with every sample until there is no room, shrinks to the room
when that is changed, and is zero after a drain or a reset. Nothing else touches a tap, and a drain
touches one tap only.

## Main definitions

* `BoundedQueue.Event` — what may happen to a queue
* `BoundedQueue.History` — what came in since the queue was emptied, and how much of it is kept
* `Synthesizer.tapEvents` — what an operation does to the tap of a voice

## Main results

* `BoundedQueue.History.Describes.handle` — one event
* `Synthesizer.taps_apply`, `Synthesizer.describes_run` — one operation, and every run
* `Synthesizer.taps_keep_last` — what the taps hold and what a drain takes
-/

namespace Famicom

/-! ### Queues -/

namespace BoundedQueue

variable {α : Type}

/-- What may happen to a queue. -/
inductive Event (α : Type) where
  | push (a : α)
  | resize (capacity : Nat)
  | clear

/-- The queue after an event. -/
def handle (q : BoundedQueue α) : Event α → BoundedQueue α
  | .push a => q.push a
  | .resize capacity => q.resize capacity
  | .clear => q.clear

/-- What came into a queue since it was emptied, how much of it is kept, and the room there is. -/
structure History (α : Type) where
  room : Nat
  kept : Nat
  pushed : List α

namespace History

/-- The history of a new queue. -/
def new (capacity : Nat) : History α :=
  ⟨capacity, 0, []⟩

/-- The history after an event. -/
def after (h : History α) : Event α → History α
  | .push a => { h with kept := min (h.kept + 1) h.room, pushed := h.pushed ++ [a] }
  | .resize capacity => { h with room := capacity, kept := min h.kept capacity }
  | .clear => { h with kept := 0, pushed := [] }

/-- The queue holds what its history says. -/
structure Describes (h : History α) (q : BoundedQueue α) : Prop where
  capacity : q.capacity = h.room
  kept_le_room : h.kept ≤ h.room
  kept_le_length : h.kept ≤ h.pushed.length
  toList : q.toList = h.pushed.rtake h.kept

variable {h : History α} {q : BoundedQueue α}

theorem tail_rtake_succ {l : List α} {n : Nat} (many : n + 1 ≤ l.length) :
    (l.rtake (n + 1)).tail = l.rtake n := by
  rw [List.rtake, List.rtake, List.tail_drop]
  congr 1
  omega

theorem describes_new (capacity : Nat) : (new capacity : History α).Describes (.empty capacity) :=
  ⟨rfl, Nat.zero_le _, Nat.zero_le _, rfl⟩

namespace Describes

theorem size (d : h.Describes q) : q.size = h.kept := by
  have least := d.kept_le_length
  rw [← q.length_toList, d.toList, List.rtake, List.length_drop]
  omega

theorem push (d : h.Describes q) (a : α) : (h.after (.push a)).Describes (q.push a) where
  capacity := (q.capacity_push a).trans d.capacity
  kept_le_room := Nat.min_le_right ..
  kept_le_length := by
    have least := d.kept_le_length
    simp only [after, List.length_append, List.length_singleton]
    omega
  toList := by
    have most := d.kept_le_room
    have least := d.kept_le_length
    -- Without room nothing is kept, a full queue gives its oldest, and any other grows.
    rw [q.toList_push, d.capacity, d.size, d.toList]
    simp only [after]
    split
    · rename_i none
      simp [show h.kept = 0 by omega, none]
    · rename_i some_room
      split
      · rename_i full
        obtain ⟨rest, counted⟩ := Nat.exists_eq_succ_of_ne_zero some_room
        have all : h.kept = rest + 1 := by omega
        rw [Nat.min_eq_right (by omega), counted, List.rtake_concat_succ, all,
          tail_rtake_succ (by omega)]
      · rename_i free
        rw [Nat.min_eq_left (by omega), List.rtake_concat_succ]

theorem resize (d : h.Describes q) (capacity : Nat) :
    (h.after (.resize capacity)).Describes (q.resize capacity) where
  capacity := q.capacity_resize capacity
  kept_le_room := Nat.min_le_right ..
  kept_le_length := Nat.le_trans (Nat.min_le_left ..) d.kept_le_length
  toList := by
    have least := d.kept_le_length
    rw [q.toList_resize, d.size, d.toList]
    simp only [after, List.rtake, List.drop_drop]
    congr 1
    omega

theorem clear (d : h.Describes q) : (h.after .clear).Describes q.clear where
  capacity := d.capacity
  kept_le_room := Nat.zero_le _
  kept_le_length := Nat.zero_le _
  toList := rfl

theorem handle (d : h.Describes q) (event : Event α) :
    (h.after event).Describes (q.handle event) := by
  cases event with
  | push a => exact d.push a
  | resize capacity => exact d.resize capacity
  | clear => exact d.clear

theorem handleAll (d : h.Describes q) (events : List (Event α)) :
    (events.foldl after h).Describes (events.foldl BoundedQueue.handle q) := by
  induction events generalizing h q with
  | nil => exact d
  | cons event events ih => exact ih (d.handle event)

end Describes

end History

end BoundedQueue

/-! ### Taps -/

namespace Audio.Synthesizer

open BoundedQueue (History)

/-- What an operation does to the tap of a voice. A sample puts in the level that the listener hears
of the voice. -/
def tapEvents (channel : Channel) (s : Synthesizer) :
    Operation → List (BoundedQueue.Event Float32)
  | .sample => [.push (s.heardLevels.get channel).toFloat32]
  | .setTapCapacity capacity => [.resize capacity]
  | .drain drained => if channel = drained then [.clear] else []
  | .reset => [.clear]
  | .write _ _ | .clock | .deliver _ | .setHeard _ _ => []

/-- What came into the tap of a voice in a run, and how much of it the tap keeps. -/
def tapHistory (channel : Channel) (capacity : Nat) (ops : List Operation) (s : Synthesizer) :
    History Float32 :=
  (runLog apply (tapEvents channel) ops s).foldl .after (.new capacity)

variable {s s' : Synthesizer}

theorem hasRoom_of_reset (run : s.reset = .ok s') : s.HasRoom := by
  by_contra full
  rw [reset_of_not_hasRoom full] at run
  cases run

/-- Nothing but samples, drains, resets and changes of the room touch a tap. -/
theorem taps_apply {op : Operation} (run : s.apply op = .ok s') (channel : Channel) :
    s'.taps.get channel = (tapEvents channel s op).foldl BoundedQueue.handle
      (s.taps.get channel) := by
  cases op with
  | write address data =>
    obtain ⟨_, _, _, _, _, written⟩ := s.exists_write address data
    obtain rfl := Except.ok.inj run
    rw [written]
    rfl
  | clock =>
    rw [(clock_eq_ok_iff.mp run).taps]
    rfl
  | sample =>
    obtain rfl := Except.ok.inj run
    exact PerChannel.get_zipWith _ _ _ channel
  | setTapCapacity capacity =>
    obtain rfl := Except.ok.inj run
    exact PerChannel.get_map _ _ channel
  | drain drained =>
    obtain rfl := Except.ok.inj run
    refine (PerChannel.get_set _ _ _ _).trans ?_
    by_cases same : channel = drained
    · simp [tapEvents, same, BoundedQueue.handle]
    · simp [tapEvents, same]
  | reset =>
    have made := reset_of_hasRoom (hasRoom_of_reset run)
    obtain rfl := Except.ok.inj (made.symm.trans run)
    exact PerChannel.get_map _ _ channel
  | deliver _ | setHeard _ _ =>
    obtain rfl := Except.ok.inj run
    rfl

theorem describes_run {h : History Float32} {channel : Channel} {ops : List Operation}
    (d : h.Describes (s.taps.get channel)) (run : ops.foldlM apply s = .ok s') :
    ((runLog apply (tapEvents channel) ops s).foldl .after h).Describes
      (s'.taps.get channel) := by
  induction ops generalizing s h with
  | nil =>
    obtain rfl := foldlM_nil_eq_ok.mp run
    exact d
  | cons op ops ih =>
    obtain ⟨middle, first, rest⟩ := foldlM_cons_eq_ok.mp run
    -- The rest of the run goes on from the history that the first operation leaves.
    have here := d.handleAll (tapEvents channel s op)
    rw [← taps_apply first channel] at here
    rw [runLog_cons_of_ok ops first, List.foldl_append]
    exact ih here rest

/-- Without ticks, nothing fails but a reset that finds no room for new taps. -/
theorem exists_run_iff_hasRoom {ops : List Operation} (still : .clock ∉ ops) :
    (∃ s', ops.foldlM apply s = .ok s') ↔
      ∀ t rest, Visits apply s ops t (.reset :: rest) → t.HasRoom := by
  constructor
  · rintro ⟨s', run⟩ t rest ⟨before, rfl, reached⟩
    obtain ⟨t', reached', run'⟩ := foldlM_append_eq_ok.mp run
    obtain rfl := Except.ok.inj (reached.symm.trans reached')
    obtain ⟨middle, first, -⟩ := foldlM_cons_eq_ok.mp run'
    exact hasRoom_of_reset first
  · intro room
    induction ops generalizing s with
    | nil => exact ⟨s, rfl⟩
    | cons op ops ih =>
      obtain ⟨other, still⟩ := not_or.mp (mt List.mem_cons.mpr still)
      have first : ∃ middle, s.apply op = .ok middle := by
        cases op with
        | clock => exact absurd rfl other
        | reset => exact ⟨_, reset_of_hasRoom (room s ops (.start s _))⟩
        | write _ _ | sample | deliver _ | setHeard _ _ | setTapCapacity _ | drain _ =>
          exact ⟨_, rfl⟩
      obtain ⟨middle, first⟩ := first
      obtain ⟨s', rest⟩ := ih still fun t rest visit =>
        room t rest (visits_cons.mpr (.inr ⟨middle, first, visit⟩))
      exact ⟨s', foldlM_cons_eq_ok.mpr ⟨middle, first, rest⟩⟩

/-- **Taps keep what came last.** Whatever is done to a new unit, the tap of every voice then holds
as many of its last samples since its last drain or reset, in order, as it has kept count of: one
more with every sample, but no more than there is room for, no more than there was room for
whenever that was changed, and none after a drain or a reset. A drain takes just these samples, and
empties the tap of its voice and no other. As long as the unit does not tick, it comes to such a
state unless it is reset with more room in its taps than new taps may have. -/
theorem taps_keep_last {capacity : Nat} {start : Synthesizer} (made : initial capacity = .ok start)
    (ops : List Operation) :
    (∀ s, ops.foldlM apply start = .ok s → ∀ channel,
      let h := tapHistory channel capacity ops start
      (s.taps.get channel).toList = h.pushed.rtake h.kept ∧
      (s.taps.get channel).capacity = h.room ∧ h.kept ≤ h.room ∧ h.kept ≤ h.pushed.length ∧
      (s.drain channel).1 = h.pushed.rtake h.kept ∧
      ∀ other, ((s.drain channel).2.taps.get other).toList =
        if other = channel then [] else (s.taps.get other).toList) ∧
    (.clock ∉ ops → ((∃ s, ops.foldlM apply start = .ok s) ↔
      ∀ s rest, Visits apply start ops s (.reset :: rest) → s.HasRoom)) := by
  refine ⟨?_, exists_run_iff_hasRoom⟩
  intro s run channel h
  have begins : (.new capacity : History Float32).Describes (start.taps.get channel) := by
    obtain ⟨tap, new, set⟩ := bind_eq_ok.mp made
    obtain rfl := Except.ok.inj set
    unfold newTap at new
    split at new
    · obtain rfl := Except.ok.inj new
      exact (PerChannel.get_uniform _ _).symm ▸ History.describes_new capacity
    · cases new
  have d : h.Describes (s.taps.get channel) := describes_run begins run
  refine ⟨d.toList, d.capacity, d.kept_le_room, d.kept_le_length, d.toList, fun other => ?_⟩
  rw [show (s.drain channel).2.taps = s.taps.set channel (s.taps.get channel).clear from rfl,
    PerChannel.get_set]
  split
  · rfl
  · rfl

/-- Three samples come into taps with room for two. One voice is drained, and then there is room for
one sample only. -/
theorem taps_keep_last_of_three :
    ∃ start s, initial 2 = .ok start ∧
      [.sample, .sample, .sample, .drain .noise, .setTapCapacity 1].foldlM apply start = .ok s ∧
      (s.drain .noise).1 = [] ∧ (s.drain .pulse1).1.length = 1 := by
  obtain ⟨start, made⟩ : ∃ start, initial 2 = .ok start := ⟨_, rfl⟩
  obtain ⟨holds, -⟩ :=
    taps_keep_last made [.sample, .sample, .sample, .drain .noise, .setTapCapacity 1]
  obtain ⟨-, -, -, -, noise, -⟩ := holds _ rfl .noise
  obtain ⟨-, -, -, -, pulse1, -⟩ := holds _ rfl .pulse1
  exact ⟨start, _, made, rfl, noise, congrArg List.length pulse1⟩

/-- Room that no new tap can have is only found to be too much in a reset. -/
theorem reset_after_setTapCapacity_fails :
    ∃ start s, initial 1024 = .ok start ∧
      [.setTapCapacity tapCapacityLimit].foldlM apply start = .ok s ∧
      s.apply .reset = .error .capacityOverflow := by
  obtain ⟨start, made⟩ : ∃ start, initial 1024 = .ok start := ⟨_, rfl⟩
  have full : ¬ (start.setTapCapacity tapCapacityLimit).HasRoom := by
    intro room
    have small := room .pulse1
    rw [setTapCapacity, PerChannel.get_map, BoundedQueue.capacity_resize] at small
    exact Nat.lt_irrefl _ small
  exact ⟨start, _, made, rfl, reset_of_not_hasRoom full⟩

end Audio.Synthesizer

end Famicom
