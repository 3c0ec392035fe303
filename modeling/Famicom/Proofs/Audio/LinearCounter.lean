import Famicom.Proofs.Audio.NoteLength

/-!
# The linear counter of a note

The triangle voice has a second counter, which runs in quarter frames. A write to the last register
of the voice asks for a reload, and the first quarter frame after it loads the counter. As long as
the control flag is set, the request stays, and every quarter frame loads the counter again. While
the flag is clear, the quarter frame that loads the counter also withdraws the request, and those
after it count down to zero. So a note that is held plays out from the moment at which the flag is
cleared just as one that was never held does from its start.

## Main definitions

* `LinearCounter` — what the voice knows of its linear counter
* `LinearCounter.Spares` — an operation that leaves the counter to its quarter frames
* `Synthesizer.quarterFrames` — the quarter frames of a run

## Main results

* `LinearCounter.toNat_counter_iterate` — a number of quarter frames after a request
* `Synthesizer.linear_apply`, `Synthesizer.linear_run` — one operation, and every run
* `Synthesizer.quarterFrames_clocks` — the quarter frames of ticks in a row
* `Synthesizer.linearCounter_plays_out` — the counter after any quarter frames of a note
-/

namespace Famicom.Audio

/-- What the triangle voice knows of its linear counter. -/
structure LinearCounter where
  /-- Requests stay. -/
  control : Bool
  reload : UInt8
  counter : UInt8
  /-- The next quarter frame loads the counter. -/
  requested : Bool
  deriving DecidableEq, Repr

namespace LinearCounter

/-- Sets control flag and reload value to what a register byte says. -/
def set (l : LinearCounter) (data : UInt8) : LinearCounter :=
  { l with control := data &&& 0x80 != 0, reload := data &&& 0x7F }

/-- Asks for a reload. -/
def request (l : LinearCounter) : LinearCounter :=
  { l with requested := true }

/-- One quarter frame. -/
def quarterFrame (l : LinearCounter) : LinearCounter :=
  { l with
    counter :=
      if l.requested then l.reload else if l.counter = 0 then 0 else l.counter - 1
    requested := l.control && l.requested }

variable {l : LinearCounter}

/-- While requests stay, quarter frames load the counter, and nothing else. -/
theorem iterate_quarterFrame_of_control (held : l.control = true) (asked : l.requested = true)
    (m : Nat) : quarterFrame^[m + 1] l = { l with counter := l.reload } := by
  have loads (l : LinearCounter) (held : l.control = true) (asked : l.requested = true) :
      l.quarterFrame = { l with counter := l.reload } := by
    simp [quarterFrame, held, asked]
  induction m with
  | zero => exact loads l held asked
  | succ m ih =>
    rw [Function.iterate_succ_apply', ih]
    exact loads { l with counter := l.reload } held asked

/-- Without a request quarter frames count down. -/
theorem toNat_counter_iterate_of_idle (idle : l.requested = false) (m : Nat) :
    (quarterFrame^[m] l).counter.toNat = l.counter.toNat - m := by
  induction m generalizing l with
  | zero => rfl
  | succ m ih =>
    have waits : l.quarterFrame.requested = false := by simp [quarterFrame, idle]
    have counts : l.quarterFrame.counter = if l.counter = 0 then 0 else l.counter - 1 := by
      simp [quarterFrame, idle]
    rw [Function.iterate_succ_apply, ih waits, counts]
    split
    · rename_i out
      simp [out]
    · rename_i left
      have pred := Checked.toNat_pred_of_ne left
      omega

/-- The counter a number of quarter frames after a request. -/
theorem toNat_counter_iterate (asked : l.requested = true) (m : Nat) :
    (quarterFrame^[m + 1] l).counter.toNat =
      if l.control then l.reload.toNat else l.reload.toNat - m := by
  cases held : l.control with
  | true => rw [iterate_quarterFrame_of_control held asked, if_pos rfl]
  | false =>
    have withdrawn : l.quarterFrame.requested = false := by simp [quarterFrame, held]
    have loaded : l.quarterFrame.counter = l.reload := by simp [quarterFrame, asked]
    rw [Function.iterate_succ_apply, toNat_counter_iterate_of_idle withdrawn, loaded,
      if_neg Bool.false_ne_true]

/-- While requests stay, quarter frames do not withdraw one. -/
theorem requested_iterate (held : l.control = true) (asked : l.requested = true) (m : Nat) :
    (quarterFrame^[m] l).requested = true := by
  cases m with
  | zero => exact asked
  | succ m => rw [iterate_quarterFrame_of_control held asked, asked]

/-- The operations that leave the counter to its quarter frames: no reset, no write to its control
register, and none that asks for a reload. -/
def Spares : Synthesizer.Operation → Prop
  | .write address _ => address ≠ 0x4008 ∧ address ≠ 0x400B
  | .reset => False
  | .clock | .sample | .deliver _ | .setHeard _ _ | .setTapCapacity _ | .drain _ => True

end LinearCounter

theorem Triangle.linearReload_tick (v : Triangle) (event : Option FrameEvent) (t : Float) :
    (v.tick event t).linearReload = v.linearReload := by
  have clocked (v : Triangle) : (v.clock t).linearReload = v.linearReload := by
    unfold clock
    split <;> rfl
  cases event with
  | none => rfl
  | some event =>
    have handled : (v.handle event).linearReload = v.linearReload := by cases event <;> rfl
    exact (clocked _).trans handled

namespace Synthesizer

/-- What the triangle voice knows of its linear counter. -/
def linear (s : Synthesizer) : LinearCounter :=
  ⟨s.triangle.control, s.triangle.linearReload, s.triangle.linearCounter,
    s.triangle.linearReloadFlag⟩

/-- The quarter frames of a run. -/
def quarterFrames (ops : List Operation) (s : Synthesizer) : Nat :=
  (runLog apply frameEvents ops s).countP (·.isQuarter)

variable {s s' : Synthesizer}

/-! ### One operation -/

theorem linear_write_control (s : Synthesizer) (data : UInt8) :
    (s.write 0x4008 data).linear = s.linear.set data :=
  rfl

theorem linear_write_note (s : Synthesizer) (data : UInt8) :
    (s.write 0x400B data).linear = s.linear.request :=
  rfl

/-- No other register has to do with the counter. -/
theorem linear_write_of_ne (s : Synthesizer) {address : UInt16} (data : UInt8)
    (control : address ≠ 0x4008) (note : address ≠ 0x400B) :
    (s.write address data).linear = s.linear := by
  unfold write
  cases found : Register.ofAddress? address with
  | none => rfl
  | some r =>
    have there := Register.ofAddress?_eq_some_iff.mp found
    cases r with
    | triangle r =>
      cases r with
      | linear => exact absurd there control
      | timerLow => rfl
      | timerHigh => exact absurd there note
    | pulse1 _ | pulse2 _ | noise _ | dmc _ | status => rfl

theorem linear_of_clock (clocked : s.clock = .ok s') :
    s'.linear = if s.nextFrameEvent.isQuarter then s.linear.quarterFrame else s.linear := by
  have tick := clock_eq_ok_iff.mp clocked
  have moved := (movesUnits_clock clocked).triangle
  have control : s'.triangle.control = s.triangle.control :=
    tick.triangle ▸ (s.triangle.switches_tick _ _).2
  have reload : s'.triangle.linearReload = s.triangle.linearReload :=
    tick.triangle ▸ s.triangle.linearReload_tick _ _
  rw [linear, control, reload, moved.linear, moved.flag]
  split <;> rfl

/-- An operation that leaves the counter to its quarter frames brings it one at most. -/
theorem linear_apply {op : Operation} (spares : LinearCounter.Spares op)
    (run : s.apply op = .ok s') :
    s'.linear = LinearCounter.quarterFrame^[(frameEvents s op).countP (·.isQuarter)] s.linear := by
  cases op with
  | write address data =>
    obtain rfl := Except.ok.inj run
    exact s.linear_write_of_ne data spares.1 spares.2
  | clock =>
    rw [linear_of_clock run, frameEvents, List.countP_singleton]
    split <;> rfl
  | reset => exact spares.elim
  | sample | deliver _ | setHeard _ _ | setTapCapacity _ | drain _ =>
    obtain rfl := Except.ok.inj run
    rfl

/-- The control register was last set as the history says. -/
theorem linear_of_history {start : Synthesizer} (begun : start.IsStart) {ops : List Operation}
    (run : ops.foldlM apply start = .ok s) :
    s.linear.control = (lastWritten 0x4008 (sinceReset ops) &&& 0x80 != 0) ∧
      s.linear.reload = lastWritten 0x4008 (sinceReset ops) &&& 0x7F := by
  refine Prod.mk.inj (eq_lastWritten_of_run 0x4008 (fun s => (s.linear.control, s.linear.reload))
    (fun data => (data &&& 0x80 != 0, data &&& 0x7F)) ?_ ?_ ?_ begun run)
  · intro s begun
    obtain ⟨switches, taps, rfl⟩ := begun.exists_eq
    rfl
  · intro s data
    rw [linear_write_control]
    rfl
  · intro s s' op elsewhere running applied
    cases op with
    | write address data =>
      obtain rfl := Except.ok.inj applied
      have control : address ≠ 0x4008 := by simpa [Operation.writtenTo?] using elsewhere
      by_cases note : address = 0x400B
      · subst note
        rw [linear_write_note]
        rfl
      · rw [s.linear_write_of_ne data control note]
    | clock =>
      rw [linear_of_clock applied]
      split <;> rfl
    | reset => exact absurd rfl running
    | sample | deliver _ | setHeard _ _ | setTapCapacity _ | drain _ =>
      obtain rfl := Except.ok.inj applied
      rfl

/-! ### Runs -/

theorem quarterFrames_cons {op : Operation} (ops : List Operation) (first : s.apply op = .ok s') :
    quarterFrames (op :: ops) s =
      (frameEvents s op).countP (·.isQuarter) + quarterFrames ops s' := by
  rw [quarterFrames, runLog_cons_of_ok ops first, List.countP_append]
  rfl

theorem linear_run {ops : List Operation} (spares : ∀ op ∈ ops, LinearCounter.Spares op)
    (run : ops.foldlM apply s = .ok s') :
    s'.linear = LinearCounter.quarterFrame^[quarterFrames ops s] s.linear := by
  induction ops generalizing s with
  | nil =>
    obtain rfl := foldlM_nil_eq_ok.mp run
    rfl
  | cons op ops ih =>
    obtain ⟨middle, first, rest⟩ := foldlM_cons_eq_ok.mp run
    have here := linear_apply (spares op (List.mem_cons_self ..)) first
    rw [ih (fun op member => spares op (List.mem_cons_of_mem _ member)) rest, here,
      ← Function.iterate_add_apply, Nat.add_comm, quarterFrames_cons ops first]

theorem quarterFrames_clocks {count n : Nat} (counts : s.CountsTicks count)
    (few : count + n ≤ 2 ^ 64) (run : (List.replicate n Operation.clock).foldlM apply s = .ok s') :
    quarterFrames (List.replicate n .clock) s = (List.range' count n).countP quarterDue :=
  countP_frameEvents_clocks isQuarter_eventOfTick? counts few run

/-- Once the counter is asked for, its quarter frames tell where it is. -/
theorem toNat_linearCounter_of_run {ops : List Operation} (asked : s.linear.requested = true)
    (spares : ∀ op ∈ ops, LinearCounter.Spares op) (run : ops.foldlM apply s = .ok s')
    (some_frame : 1 ≤ quarterFrames ops s) :
    s'.triangle.linearCounter.toNat =
      if s.linear.control then s.linear.reload.toNat
      else s.linear.reload.toNat - (quarterFrames ops s - 1) := by
  obtain ⟨m, frames⟩ := Nat.exists_eq_add_of_le' some_frame
  have counter := congrArg LinearCounter.counter (linear_run spares run)
  rw [frames] at counter ⊢
  exact (congrArg UInt8.toNat counter).trans (LinearCounter.toNat_counter_iterate asked m)

/-- **The linear counter plays out.** Let a unit be in any state that power-on, resets and
operations lead to; control flag and reload value of its triangle voice are as its control register
was last set. Let a note be started, and let a run follow that leaves the linear counter to its
quarter frames. If the flag is clear, the counter is at the reload value after the first quarter
frame, and lower by one after every other, down to zero. If the flag is set, the counter is at the
reload value after every quarter frame. Then let the flag be cleared at any time, with a reload
value of its own, and let another such run follow. After its quarter frames the counter is where
those of a note that was never held would have left it. -/
theorem linearCounter_plays_out {start t : Synthesizer} (begun : start.IsStart)
    {past ops : List Operation} (reached : past.foldlM apply start = .ok s) (data : UInt8)
    (spares : ∀ op ∈ ops, LinearCounter.Spares op)
    (run : ops.foldlM apply (s.write 0x400B data) = .ok t) :
    let setting := lastWritten 0x4008 (sinceReset past)
    let reload := (setting &&& 0x7F).toNat
    let m := quarterFrames ops (s.write 0x400B data)
    (s.triangle.control = true ↔ setting &&& 0x80 ≠ 0) ∧
      s.triangle.linearReload.toNat = reload ∧
      (s.triangle.control = false → 1 ≤ m →
        t.triangle.linearCounter.toNat = reload - (m - 1)) ∧
      (s.triangle.control = true →
        (1 ≤ m → t.triangle.linearCounter.toNat = reload) ∧
        ∀ cleared ops' t', cleared &&& 0x80 = 0 → (∀ op ∈ ops', LinearCounter.Spares op) →
          ops'.foldlM apply (t.write 0x4008 cleared) = .ok t' →
          let m' := quarterFrames ops' (t.write 0x4008 cleared)
          1 ≤ m' → t'.triangle.linearCounter.toNat = (cleared &&& 0x7F).toNat - (m' - 1)) := by
  intro setting reload m
  obtain ⟨control, loads⟩ := linear_of_history begun reached
  have loads' : s.triangle.linearReload.toNat = reload := congrArg UInt8.toNat loads
  have plays (some_frame : 1 ≤ m) : t.triangle.linearCounter.toNat =
      if s.triangle.control then s.triangle.linearReload.toNat
      else s.triangle.linearReload.toNat - (m - 1) :=
    toNat_linearCounter_of_run (s := s.write 0x400B data) rfl spares run some_frame
  rw [loads'] at plays
  refine ⟨?_, loads', ?_, ?_⟩
  · rw [show s.triangle.control = _ from control]
    exact bne_iff_ne
  · intro free some_frame
    rw [plays some_frame, free, if_neg Bool.false_ne_true]
  · intro held
    refine ⟨fun some_frame => by rw [plays some_frame, held, if_pos rfl], ?_⟩
    intro cleared ops' t' clears spares' run' m' some_frame
    -- A held note goes on asking for a reload.
    have asked : t.linear.requested = true := by
      rw [linear_run spares run]
      exact LinearCounter.requested_iterate (l := (s.write 0x400B data).linear) held rfl _
    have free : (t.write 0x4008 cleared).linear.control = false := bne_eq_false_iff_eq.mpr clears
    have counter := toNat_linearCounter_of_run (s := t.write 0x4008 cleared) asked spares' run'
      some_frame
    rw [free, if_neg Bool.false_ne_true] at counter
    exact counter

/-- A held note is loaded with five in its first quarter frame, and with three in its second, before
which it is released. -/
theorem linearCounter_plays_out_of_release :
    let held := List.replicate 22369 Operation.clock
    let released := List.replicate 22368 Operation.clock
    ∃ start s t t', initial 1024 = .ok start ∧ [.write 0x4008 0x85].foldlM apply start = .ok s ∧
      held.foldlM apply (s.write 0x400B 0x08) = .ok t ∧
      released.foldlM apply (t.write 0x4008 0x03) = .ok t' ∧
      quarterFrames held (s.write 0x400B 0x08) = 1 ∧ t.triangle.linearCounter.toNat = 5 ∧
      quarterFrames released (t.write 0x4008 0x03) = 1 ∧
      t'.triangle.linearCounter.toNat = 3 := by
  intro held released
  obtain ⟨start, made⟩ : ∃ start, initial 1024 = .ok start := ⟨_, rfl⟩
  have begun := isStart_of_initial made
  let s := start.write 0x4008 0x85
  have reached : [.write 0x4008 0x85].foldlM apply start = .ok s := rfl
  have spares (n : Nat) : ∀ op ∈ List.replicate n Operation.clock, LinearCounter.Spares op :=
    fun op member => List.eq_of_mem_replicate member ▸ trivial
  -- The first quarter frames of all come after 22368 and 44736 ticks.
  have quiet (i : Nat) (between : i < 22368 ∨ 22368 < i ∧ i < 44736) : quarterDue i = false := by
    rw [quarterDue, decide_eq_false_iff_not]
    simp only [List.mem_cons, List.not_mem_nil, or_false]
    omega
  have started : s.apply (.write 0x400B 0x08) = .ok (s.write 0x400B 0x08) := rfl
  have counts : (s.write 0x400B 0x08).CountsTicks 0 :=
    ((CountsTicks.of_isStart begun).run reached).apply started
  have inRange : (s.write 0x400B 0x08).InRange := ((InRange.of_isStart begun).write _ _).write _ _
  obtain ⟨t, ran, inRange', stays'⟩ := inRange.exists_clocks counts.not_overshoots 22369
  have counts' : (t.write 0x4008 0x03).CountsTicks 22369 := by
    have release : t.apply (.write 0x4008 0x03) = .ok (t.write 0x4008 0x03) := rfl
    have ticked := (counts.run ran).apply release
    rwa [foldl_ticksAfter_replicate] at ticked
  obtain ⟨t', ran', -⟩ := (inRange'.write 0x4008 0x03).exists_clocks stays' 22368
  have one : quarterFrames held (s.write 0x400B 0x08) = 1 :=
    (quarterFrames_clocks counts (by decide) ran).trans
      (countP_range'_eq_one (n := 22368) (fun i _ below => quiet i (by omega)) (by decide))
  have one' : quarterFrames released (t.write 0x4008 0x03) = 1 :=
    (quarterFrames_clocks counts' (by decide) ran').trans
      (countP_range'_eq_one (n := 22367) (fun i _ below => quiet i (by omega)) (by decide))
  obtain ⟨control, -, -, plays⟩ :=
    linearCounter_plays_out begun reached 0x08 (spares 22369) ran
  obtain ⟨loaded, cleared⟩ := plays (control.mpr (by decide))
  have counter := loaded (Nat.le_of_eq one.symm)
  have counter' := cleared 0x03 released t' (by decide) (spares 22368) ran' (Nat.le_of_eq one'.symm)
  rw [one'] at counter'
  exact ⟨start, s, t, t', made, reached, ran, ran', one, counter, one', counter'⟩

end Synthesizer

end Famicom.Audio
