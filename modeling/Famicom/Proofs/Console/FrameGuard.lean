import Famicom.Bench.RegisterPicture
import Famicom.Bench.ScriptedProcessor
import Famicom.Proofs.Cartridge.Run
import Famicom.Proofs.Console.Calls
import Famicom.Proofs.Console.EventLog
import Famicom.Storage.Disk

/-!
# The guard of a frame

A run up to the end of a frame makes ticks until the picture unit has completed a frame, and gives
up when it has made as many as its guard allows. It gives up right after the last of them, before it
looks at the picture unit once more. So a frame that is completed by the last tick is not noticed,
although no tick was made beyond the guard.

What the run comes to is told by the ticks alone: by the consoles that so many ticks lead to, and by
which of them is the first to show a frame.

## Main definitions

* `Machine.afterTicks` — the console after a number of ticks
* `Machine.Unfinished`, `Machine.Finishes` — no console so far shows a frame, and one is the first

## Main results

* `Machine.runFrameWithin_eq_true_iff`, `Machine.runFrameWithin_eq_false_iff`,
  `Machine.runFrameWithin_eq_error_iff` — the three ways in which a run ends
* `Machine.exists_runFrameWithin_withLog` — what a run logs
* `Machine.runFrame_within_guard` — all of it for the call of a user
-/

namespace Famicom.Machine

variable {κ π δ : Type} [Processor κ] [PictureUnit π] [FileStore δ]

/-! ### Ticks -/

/-- The console after a number of ticks. -/
def afterTicks (m : Machine κ π δ) (ticks : Nat) : Except Fault (Machine κ π δ) :=
  (List.replicate ticks (.clock : Operation κ π δ)).foldlM apply m

/-- No console on the way to the last of some ticks shows a frame. -/
def Unfinished (m : Machine κ π δ) (ticks : Nat) : Prop :=
  ∀ earlier < ticks, ∀ s, m.afterTicks earlier = .ok s → s.frameComplete = false

/-- The console that some ticks lead to is the first to show a frame. -/
structure Finishes (m : Machine κ π δ) (ticks : Nat) (s : Machine κ π δ) : Prop where
  reached : m.afterTicks ticks = .ok s
  complete : s.frameComplete = true
  first : m.Unfinished ticks

variable {m m' s : Machine κ π δ} {n : Nat} {fault : Fault} {sampled : Bool}

@[simp] theorem afterTicks_zero (m : Machine κ π δ) : m.afterTicks 0 = .ok m :=
  rfl

theorem afterTicks_succ_of_ok (ticked : m.clock = .ok (sampled, m')) (n : Nat) :
    m.afterTicks (n + 1) = m'.afterTicks n := by
  have first : m.apply .clock = .ok m' := by
    rw [apply, ticked]
    rfl
  rw [afterTicks, List.replicate_succ, List.foldlM_cons, first]
  rfl

theorem afterTicks_succ_of_error (failed : m.clock = .error fault) (n : Nat) :
    m.afterTicks (n + 1) = .error fault := by
  have first : m.apply .clock = .error fault := by
    rw [apply, failed]
    rfl
  rw [afterTicks, List.replicate_succ, List.foldlM_cons, first]
  rfl

theorem unfinished_zero (m : Machine κ π δ) : m.Unfinished 0 :=
  fun _ none => absurd none (Nat.not_lt_zero _)

theorem unfinished_succ_of_ok (ticked : m.clock = .ok (sampled, m')) :
    m.Unfinished (n + 1) ↔ m.frameComplete = false ∧ m'.Unfinished n := by
  unfold Unfinished
  rw [Nat.forall_lt_succ_left]
  simp only [afterTicks_succ_of_ok ticked, afterTicks_zero, Except.ok.injEq, forall_eq']

theorem unfinished_one_iff : m.Unfinished 1 ↔ m.frameComplete = false := by
  simp [Unfinished]

theorem finishes_zero_iff : m.Finishes 0 s ↔ m = s ∧ m.frameComplete = true := by
  constructor
  · rintro ⟨reached, complete, -⟩
    obtain rfl := Except.ok.inj reached
    exact ⟨rfl, complete⟩
  · rintro ⟨rfl, complete⟩
    exact ⟨rfl, complete, m.unfinished_zero⟩

theorem finishes_succ_iff_of_ok (going : m.frameComplete = false)
    (ticked : m.clock = .ok (sampled, m')) : m.Finishes (n + 1) s ↔ m'.Finishes n s := by
  constructor
  · rintro ⟨reached, complete, first⟩
    exact ⟨afterTicks_succ_of_ok ticked n ▸ reached, complete,
      ((unfinished_succ_of_ok ticked).mp first).2⟩
  · rintro ⟨reached, complete, first⟩
    exact ⟨(afterTicks_succ_of_ok ticked n).trans reached, complete,
      (unfinished_succ_of_ok ticked).mpr ⟨going, first⟩⟩

/-- After a console that shows a frame, none is the first to show one. -/
theorem not_unfinished_succ (done : m.frameComplete = true) (n : Nat) : ¬ m.Unfinished (n + 1) := by
  intro unfinished
  have going := unfinished 0 n.succ_pos m rfl
  rw [done] at going
  cases going

/-! ### The loop -/

theorem runFrameWithin_of_complete (done : m.frameComplete = true) (n : Nat) :
    m.runFrameWithin (n + 1) = .ok (true, m) := by
  rw [runFrameWithin]
  exact if_pos done

theorem runFrameWithin_of_ok (going : m.frameComplete = false)
    (ticked : m.clock = .ok (sampled, m')) (n : Nat) :
    m.runFrameWithin (n + 1) = m'.runFrameWithin n := by
  rw [runFrameWithin, going, ticked]
  rfl

theorem runFrameWithin_of_error (going : m.frameComplete = false)
    (failed : m.clock = .error fault) (n : Nat) : m.runFrameWithin (n + 1) = .error fault := by
  rw [runFrameWithin, going, failed]
  rfl

theorem runFrameWithin_eq_true_iff :
    m.runFrameWithin n = .ok (true, s) ↔ ∃ ticks < n, m.Finishes ticks s := by
  induction n generalizing m with
  | zero =>
    refine iff_of_false nofun ?_
    rintro ⟨ticks, none, -⟩
    exact Nat.not_lt_zero ticks none
  | succ n ih =>
    rw [Nat.exists_lt_succ_left, finishes_zero_iff]
    cases done : m.frameComplete with
    | true =>
      rw [runFrameWithin_of_complete done]
      constructor
      · intro run
        exact .inl ⟨(Prod.mk.inj (Except.ok.inj run)).2, rfl⟩
      · rintro (⟨rfl, -⟩ | ⟨ticks, -, finishes⟩)
        · rfl
        · exact absurd finishes.first (not_unfinished_succ done ticks)
    | false =>
      simp only [Bool.false_eq_true, and_false, false_or]
      cases ticked : m.clock with
      | ok result =>
        obtain ⟨sampled, m'⟩ := result
        rw [runFrameWithin_of_ok done ticked, ih]
        simp only [finishes_succ_iff_of_ok done ticked]
      | error fault =>
        rw [runFrameWithin_of_error done ticked]
        refine iff_of_false nofun ?_
        rintro ⟨ticks, -, finishes⟩
        have reached := finishes.reached
        rw [afterTicks_succ_of_error ticked] at reached
        cases reached

theorem settings_slot (m : Machine κ π δ) : m.slot.settings = m.settings := by
  unfold slot
  split
  · rw [useSlot_eq]
    split <;> rfl
  · rfl

theorem settings_poll (m : Machine κ π δ) : m.poll.settings = m.settings := by
  have of_poll {m m' : Machine κ π δ} {happened : List Happening} (poll : m.IsPoll happened m') :
      m'.settings = m.settings := by
    cases poll <;> rfl
  exact (of_poll (isPoll_soundIrq _)).trans
    ((of_poll (isPoll_cartridgeIrq _)).trans (of_poll (isPoll_nmi m)))

/-- A tick leaves the settings alone. -/
theorem settings_clock (ticked : m.clock = .ok (sampled, m')) : m'.settings = m.settings := by
  rw [clock_eq] at ticked
  obtain ⟨late, clocked, rest⟩ := bind_eq_ok.mp ticked
  obtain ⟨-, rfl⟩ := Prod.mk.inj (Except.ok.inj rest)
  obtain ⟨picture, cartridge, sound, moved⟩ := exists_of_clockSound clocked
  obtain ⟨taps, audioTime, audioSample, took⟩ := late.slot.exists_sampleAudio
  calc late.slot.sampleAudio.2.poll.settings = late.slot.sampleAudio.2.settings := settings_poll _
    _ = late.slot.settings := by rw [took]
    _ = late.settings := late.settings_slot
    _ = m.settings := by rw [moved]; rfl

theorem runFrameWithin_eq_false_iff :
    m.runFrameWithin n = .ok (false, m') ↔
      ∃ s, m.afterTicks n = .ok s ∧ m.Unfinished n ∧
        m' = s.mapDevices (·.record (.frameGuardTripped m.settings.frameGuardTicks)) := by
  induction n generalizing m with
  | zero =>
    simp only [runFrameWithin, afterTicks_zero, Except.ok.injEq, Prod.mk.injEq, true_and,
      exists_eq_left', m.unfinished_zero]
    exact eq_comm
  | succ n ih =>
    cases done : m.frameComplete with
    | true =>
      rw [runFrameWithin_of_complete done]
      refine iff_of_false nofun ?_
      rintro ⟨s, -, unfinished, -⟩
      exact not_unfinished_succ done n unfinished
    | false =>
      cases ticked : m.clock with
      | ok result =>
        obtain ⟨sampled, middle⟩ := result
        rw [runFrameWithin_of_ok done ticked, ih, afterTicks_succ_of_ok ticked,
          unfinished_succ_of_ok ticked, settings_clock ticked]
        simp only [done, true_and]
      | error fault =>
        rw [runFrameWithin_of_error done ticked, afterTicks_succ_of_error ticked]
        exact iff_of_false nofun (by rintro ⟨s, ⟨⟩, -⟩)

theorem runFrameWithin_eq_error_iff :
    m.runFrameWithin n = .error fault ↔
      ∃ ticks < n, ∃ s, m.afterTicks ticks = .ok s ∧ m.Unfinished (ticks + 1) ∧
        s.clock = .error fault := by
  induction n generalizing m with
  | zero =>
    refine iff_of_false nofun ?_
    rintro ⟨ticks, none, -⟩
    exact Nat.not_lt_zero ticks none
  | succ n ih =>
    rw [Nat.exists_lt_succ_left]
    simp only [afterTicks_zero, Except.ok.injEq, exists_eq_left', Nat.zero_add, unfinished_one_iff]
    cases done : m.frameComplete with
    | true =>
      rw [runFrameWithin_of_complete done]
      refine iff_of_false nofun ?_
      rintro (⟨going, -⟩ | ⟨ticks, -, s, -, unfinished, -⟩)
      · cases going
      · exact not_unfinished_succ done _ unfinished
    | false =>
      cases ticked : m.clock with
      | ok result =>
        obtain ⟨sampled, middle⟩ := result
        rw [runFrameWithin_of_ok done ticked, ih]
        simp only [afterTicks_succ_of_ok ticked, unfinished_succ_of_ok ticked, done, true_and,
          reduceCtorEq, and_false, false_or]
      | error failure =>
        rw [runFrameWithin_of_error done ticked]
        constructor
        · intro failed
          exact .inl ⟨rfl, failed⟩
        · rintro (⟨-, failed⟩ | ⟨ticks, -, s, reached, -⟩)
          · exact failed
          · rw [afterTicks_succ_of_error ticked] at reached
            cases reached

/-! ### What is logged -/

/-- What a run adds to the log. -/
def tripped (m : Machine κ π δ) (complete : Bool) : List Event :=
  if complete then [] else [.frameGuardTripped m.settings.frameGuardTicks]

/-- A run logs the trip of its guard if it ends there, once, and its ticks log none. -/
theorem exists_runFrameWithin_withLog {complete : Bool}
    (run : m.runFrameWithin n = .ok (complete, m')) :
    ∃ events, Untripped events ∧ ∀ log, (m.withLog log).runFrameWithin n =
      .ok (complete, m'.withLog (logAfter log (events ++ m.tripped complete))) := by
  induction n generalizing m with
  | zero =>
    obtain ⟨rfl, rfl⟩ := Prod.mk.inj (Except.ok.inj run)
    exact ⟨[], .nil, fun _ => rfl⟩
  | succ n ih =>
    have shown (log : EventLog) : (m.withLog log).frameComplete = m.frameComplete := rfl
    cases done : m.frameComplete with
    | true =>
      rw [runFrameWithin_of_complete done] at run
      obtain ⟨rfl, rfl⟩ := Prod.mk.inj (Except.ok.inj run)
      exact ⟨[], .nil, fun log => runFrameWithin_of_complete ((shown log).trans done) n⟩
    | false =>
      cases ticked : m.clock with
      | error fault =>
        rw [runFrameWithin_of_error done ticked] at run
        cases run
      | ok result =>
        obtain ⟨sampled, middle⟩ := result
        rw [runFrameWithin_of_ok done ticked] at run
        obtain ⟨first, quiet, ticks⟩ := m.exists_clock_withLog
        obtain ⟨rest, quiet', runs⟩ := ih run
        have same : middle.tripped complete = m.tripped complete := by
          rw [tripped, tripped, settings_clock ticked]
        refine ⟨first ++ rest, quiet.append quiet', fun log => ?_⟩
        have ticked' := ticks log
        rw [ticked] at ticked'
        rw [runFrameWithin_of_ok ((shown log).trans done) ticked', runs, same, List.append_assoc,
          logAfter_append log]

/-- With a cartridge and some ticks to use up, a run is the loop from where a frame begins. -/
theorem runFrame_eq (inserted : m.hasCartridge = true)
    (guarded : 1 ≤ m.settings.frameGuardTicks) :
    m.runFrame = m.beginFrame.runFrameWithin m.settings.frameGuardTicks.toNat := by
  have some_ticks : 1 ≤ m.settings.frameGuardTicks.toNat := guarded
  unfold runFrame
  rw [if_pos inserted]
  exact congrArg (runFrameWithin · m.beginFrame) (Nat.max_eq_left some_ticks)

/-- **A run up to the end of a frame keeps to its guard.** With a cartridge and a guard of `g`
ticks, it comes to the first console that shows a frame if fewer than `g` ticks lead there. If `g`
ticks can be made and no console before the last of them shows a frame, it ends right after the last
and says so, whatever that one shows. It is refused where a tick is, before a frame is shown. It
logs one trip of its guard in the second case, and none in the first. So it tells whether a frame
was completed within `g` ticks, unless it is the last one that completes it. -/
theorem runFrame_within_guard (inserted : m.hasCartridge = true)
    (guarded : 1 ≤ m.settings.frameGuardTicks) :
    let g := m.settings.frameGuardTicks.toNat
    (∀ m', m.runFrame = .ok (true, m') ↔ ∃ ticks < g, m.beginFrame.Finishes ticks m') ∧
      (∀ m', m.runFrame = .ok (false, m') ↔
        ∃ s, m.beginFrame.afterTicks g = .ok s ∧ m.beginFrame.Unfinished g ∧
          m' = s.mapDevices (·.record (.frameGuardTripped m.settings.frameGuardTicks))) ∧
      (∀ fault, m.runFrame = .error fault ↔
        ∃ ticks < g, ∃ s, m.beginFrame.afterTicks ticks = .ok s ∧
          m.beginFrame.Unfinished (ticks + 1) ∧ s.clock = .error fault) ∧
      (∀ complete m', m.runFrame = .ok (complete, m') →
        ∃ events, Untripped events ∧ ∀ log, (m.withLog log).runFrame =
          .ok (complete, m'.withLog (logAfter log (events ++ m.tripped complete)))) ∧
      ((∀ s, ¬ m.beginFrame.Finishes g s) → ∀ m',
        (m.runFrame = .ok (true, m') ↔ ∃ ticks ≤ g, m.beginFrame.Finishes ticks m')) := by
  intro g
  rw [runFrame_eq inserted guarded]
  refine ⟨?_, ?_, ?_, ?_, ?_⟩
  · exact fun _ => runFrameWithin_eq_true_iff
  · exact fun _ => runFrameWithin_eq_false_iff
  · exact fun _ => runFrameWithin_eq_error_iff
  · intro complete m' ran
    obtain ⟨events, untripped, runs⟩ := exists_runFrameWithin_withLog ran
    refine ⟨events, untripped, fun log => ?_⟩
    have inserted' : (m.withLog log).hasCartridge = true := inserted
    have guarded' : 1 ≤ (m.withLog log).settings.frameGuardTicks := guarded
    rw [runFrame_eq inserted' guarded']
    exact runs log
  · intro early m'
    rw [runFrameWithin_eq_true_iff]
    constructor
    · rintro ⟨ticks, within, finishes⟩
      exact ⟨ticks, Nat.le_of_lt within, finishes⟩
    · rintro ⟨ticks, within, finishes⟩
      refine ⟨ticks, Nat.lt_of_le_of_ne within ?_, finishes⟩
      rintro rfl
      exact early m' finishes

/-- A tick whose early phases succeed, whether it takes a sample or not. -/
theorem exists_clock {late : Machine κ π δ} (clocked : m.clockPicture.clockSound = .ok late) :
    ∃ sampled taps audioTime audioSample, m.clock =
      .ok (sampled,
        let s := poll { late.slot with
          devices := { late.slot.devices with sound := { late.slot.devices.sound with taps } }
          audioTime, audioSample }
        { s with ticks := s.ticks + 1 }) := by
  obtain ⟨taps, audioTime, audioSample, took⟩ := late.slot.exists_sampleAudio
  refine ⟨late.slot.sampleAudio.1, taps, audioTime, audioSample, ?_⟩
  rw [clock_eq, clocked, ← took]
  rfl

/-- A cartridge with an NROM board and blank memory. -/
def blankNrom : Cartridge :=
  .blank fun banks => .nrom { banks }

/-- Consoles whose first tick completes a frame. -/
theorem exists_finishes_one {guard : UInt64} (small : guard = 1 ∨ guard = 2) :
    ∃ m s : Machine Bench.ScriptedProcessor Bench.RegisterPicture Disk,
      m.hasCartridge = true ∧ m.settings.frameGuardTicks = guard ∧ m.beginFrame.Finishes 1 s := by
  obtain ⟨start, -, inserted, guarded, going, late, clocked, complete⟩ :
      ∃ start : Machine Bench.ScriptedProcessor Bench.RegisterPicture Disk,
        initial {} { frameLength := 1 } {} { frameGuardTicks := guard } = .ok start ∧
        (start.insert blankNrom).hasCartridge = true ∧
        (start.insert blankNrom).settings.frameGuardTicks = guard ∧
        (start.insert blankNrom).beginFrame.frameComplete = false ∧
        ∃ late, (start.insert blankNrom).beginFrame.clockPicture.clockSound = .ok late ∧
          ∀ taps audioTime audioSample, frameComplete (poll { late.slot with
            devices := { late.slot.devices with sound := { late.slot.devices.sound with taps } }
            audioTime, audioSample }) = true := by
    -- Ticks are computed only where the console is given in full.
    obtain rfl | rfl := small
    all_goals
      refine ⟨_, rfl, rfl, rfl, rfl, _, rfl, ?_⟩
      intro taps audioTime audioSample
      rfl
  obtain ⟨sampled, taps, audioTime, audioSample, ticked⟩ := exists_clock clocked
  exact ⟨_, _, inserted, guarded, (finishes_succ_iff_of_ok going ticked).mpr
    (finishes_zero_iff.mpr ⟨rfl, complete taps audioTime audioSample⟩)⟩

/-- With a guard of two ticks, a frame that the first of them completes is noticed, and no event is
logged but those of the tick. -/
theorem runFrame_within_guard_of_tick :
    ∃ m s : Machine Bench.ScriptedProcessor Bench.RegisterPicture Disk,
      m.hasCartridge = true ∧ 1 ≤ m.settings.frameGuardTicks ∧ m.settings.frameGuardTicks = 2 ∧
      m.beginFrame.Finishes 1 s ∧ m.runFrame = .ok (true, s) ∧
      ∃ events, Untripped events ∧
        ∀ log, (m.withLog log).runFrame = .ok (true, s.withLog (logAfter log events)) := by
  obtain ⟨m, s, inserted, two, finishes⟩ := exists_finishes_one (.inr rfl)
  have guarded : 1 ≤ m.settings.frameGuardTicks := by
    rw [two]
    decide
  obtain ⟨completes, -, -, logs, -⟩ := runFrame_within_guard inserted guarded
  have run : m.runFrame = .ok (true, s) := by
    refine (completes s).mpr ⟨1, ?_, finishes⟩
    rw [two]
    decide
  obtain ⟨events, untripped, runs⟩ := logs true s run
  refine ⟨m, s, inserted, guarded, two, finishes, run, events, untripped, fun log => ?_⟩
  rw [runs log, tripped, if_pos rfl, List.append_nil]

/-- With a guard of one tick, the frame that this tick completes is not noticed: the run says that
its guard tripped. -/
theorem runFrame_misses_last_tick :
    ∃ m s : Machine Bench.ScriptedProcessor Bench.RegisterPicture Disk,
      m.hasCartridge = true ∧ m.settings.frameGuardTicks = 1 ∧
      m.beginFrame.frameComplete = false ∧ m.beginFrame.afterTicks 1 = .ok s ∧
      s.frameComplete = true ∧
      m.runFrame = .ok (false, s.mapDevices (·.record (.frameGuardTripped 1))) := by
  obtain ⟨m, s, inserted, one, finishes⟩ := exists_finishes_one (.inl rfl)
  have guarded : 1 ≤ m.settings.frameGuardTicks := by
    rw [one]
    decide
  refine ⟨m, s, inserted, one, finishes.first 0 Nat.one_pos _ rfl, finishes.reached,
    finishes.complete, ?_⟩
  rw [runFrame_eq inserted guarded, runFrameWithin_eq_false_iff, one]
  exact ⟨s, finishes.reached, finishes.first, by rw [← one]; rfl⟩

end Famicom.Machine
