import Famicom.Proofs.Console.Run

/-!
# Runs up to a sample or a frame

Besides single operations a user asks the console to run up to the next audio sample, or up to the
end of a frame. Such a call is a number of ticks, which depends on what the ticks bring. Every tick
of a run is known by the console that makes it.

## Main definitions

* `Machine.Call`, `Machine.call` — what a user asks of the console
* `Machine.ticking` — the consoles that make the ticks of a run, in order
* `Machine.resetsOn` — the calls that reset the console

## Main results

* `Machine.TickInvariant.run` — what every tick keeps, and everything else but resets, is kept by
  runs, whatever the past ticks are that it speaks of
-/

namespace Famicom

/-- What a user asks of the console. -/
inductive Machine.Call (κ π δ : Type) where
  | once (op : Machine.Operation κ π δ)
  | nextSample
  | runFrame

namespace Machine

variable {κ π δ : Type} [Processor κ] [PictureUnit π] [FileStore δ]

/-- The console after a call. -/
def call (m : Machine κ π δ) : Call κ π δ → Except Fault (Machine κ π δ)
  | .once op => m.apply op
  | .nextSample => do pure (← m.nextSample).2
  | .runFrame => do pure (← m.runFrame).2

/-- A call resets the console. A file of no use does not come so far. -/
def resetsOn (m : Machine κ π δ) : Call κ π δ → Bool
  | .once .reset => true
  | .once (.load path) =>
    (Cartridge.openFile path m.settings.saveDirectory m.devices.store).isOk
  | _ => false

/-! ### Ticks -/

/-- The consoles that tick on the way to an audio sample. -/
def tickingToSample : Nat → Machine κ π δ → List (Machine κ π δ)
  | 0, _ => []
  | fuel + 1, m =>
    m ::
      match m.clock with
      | .ok (false, m') => tickingToSample fuel m'
      | _ => []

/-- The consoles that tick on the way to the end of a frame. -/
def tickingToFrame : Nat → Machine κ π δ → List (Machine κ π δ)
  | 0, _ => []
  | n + 1, m =>
    if m.frameComplete then []
    else
      m ::
        match m.clock with
        | .ok (_, m') => tickingToFrame n m'
        | .error _ => []

/-- A frame begins. -/
def beginFrame (m : Machine κ π δ) : Machine κ π δ :=
  m.mapDevices fun d => { d with picture := PictureUnit.beginFrame d.picture }

/-- The consoles that tick in a call. -/
def tickingIn (m : Machine κ π δ) : Call κ π δ → List (Machine κ π δ)
  | .once .clock => [m]
  | .once _ => []
  | .nextSample => tickingToSample longestSample m
  | .runFrame =>
    if m.hasCartridge then
      tickingToFrame (max m.settings.frameGuardTicks.toNat 1) m.beginFrame
    else
      []

/-- The consoles that tick in a run. -/
abbrev ticking (m : Machine κ π δ) (calls : List (Call κ π δ)) : List (Machine κ π δ) :=
  runLog call tickingIn calls m

/-- A property of a console and its past ticks that ticks keep, and all else but resets. -/
structure TickInvariant (P : Machine κ π δ → List (Machine κ π δ) → Prop) : Prop where
  clock : ∀ {m past sampled m'}, P m past → m.clock = .ok (sampled, m') → P m' (past ++ [m])
  apply : ∀ {m past op m'}, P m past → op ≠ .clock → m.resetsOn (.once op) = false →
    m.apply op = .ok m' → P m' past
  record : ∀ {m past} event, P m past → P (m.mapDevices (·.record event)) past

namespace TickInvariant

variable {P : Machine κ π δ → List (Machine κ π δ) → Prop} {m m' : Machine κ π δ}
  {past : List (Machine κ π δ)}

theorem nextSampleWithin (h : TickInvariant P) (holds : P m past) {fuel : Nat}
    (run : m.nextSampleWithin fuel = .ok m') : P m' (past ++ tickingToSample fuel m) := by
  induction fuel generalizing m past with
  | zero =>
    obtain rfl := Except.ok.inj run
    rwa [tickingToSample, List.append_nil]
  | succ fuel ih =>
    obtain ⟨⟨sampled, middle⟩, clocked, rest⟩ := bind_eq_ok.mp run
    -- The tick becomes the last of the past ticks.
    have ticked := h.clock holds clocked
    rw [tickingToSample, clocked, List.append_cons]
    cases sampled with
    | true =>
      obtain rfl := Except.ok.inj rest
      exact (List.append_nil _).symm ▸ ticked
    | false => exact ih ticked rest

theorem runFrameWithin (h : TickInvariant P) (holds : P m past) {fuel : Nat} {complete : Bool}
    (run : m.runFrameWithin fuel = .ok (complete, m')) :
    P m' (past ++ tickingToFrame fuel m) := by
  induction fuel generalizing m past with
  | zero =>
    obtain ⟨-, rfl⟩ := Prod.mk.inj (Except.ok.inj run)
    rw [tickingToFrame, List.append_nil]
    exact h.record _ holds
  | succ fuel ih =>
    unfold Machine.runFrameWithin at run
    unfold tickingToFrame
    split at run
    · rename_i done
      obtain ⟨-, rfl⟩ := Prod.mk.inj (Except.ok.inj run)
      rwa [if_pos done, List.append_nil]
    · rename_i going
      obtain ⟨⟨sampled, middle⟩, clocked, rest⟩ := bind_eq_ok.mp run
      rw [if_neg going, clocked, List.append_cons]
      exact ih (h.clock holds clocked) rest

/-- A call that does not reset the console keeps what its ticks keep. -/
theorem call (h : TickInvariant P) (holds : P m past) {c : Call κ π δ}
    (unreset : m.resetsOn c = false) (run : m.call c = .ok m') : P m' (past ++ m.tickingIn c) := by
  cases c with
  | once op =>
    by_cases clock : op = .clock
    · subst clock
      obtain ⟨⟨sampled, middle⟩, clocked, rest⟩ := bind_eq_ok.mp run
      obtain rfl := Except.ok.inj rest
      exact h.clock holds clocked
    · have quiet : m.tickingIn (.once op) = [] := by
        cases op <;> first | rfl | contradiction
      rw [quiet, List.append_nil]
      exact h.apply holds clock unreset run
  | nextSample =>
    obtain ⟨⟨audioSample, middle⟩, sampled, rest⟩ := bind_eq_ok.mp run
    obtain rfl := Except.ok.inj rest
    obtain ⟨last, ran, rest⟩ := bind_eq_ok.mp sampled
    obtain ⟨-, rfl⟩ := Prod.mk.inj (Except.ok.inj rest)
    exact h.nextSampleWithin holds ran
  | runFrame =>
    obtain ⟨⟨complete, middle⟩, ran, rest⟩ := bind_eq_ok.mp run
    obtain rfl := Except.ok.inj rest
    unfold Machine.runFrame at ran
    unfold tickingIn
    split at ran
    · rename_i inserted
      rw [if_pos inserted]
      have other : Operation.mapPicture PictureUnit.beginFrame ≠ (.clock : Operation κ π δ) := nofun
      have begun : P m.beginFrame past := h.apply holds other rfl rfl
      exact h.runFrameWithin begun ran
    · rename_i empty
      obtain ⟨-, rfl⟩ := Prod.mk.inj (Except.ok.inj ran)
      rwa [if_neg empty, List.append_nil]

/-- So does a run without resets. -/
theorem run (h : TickInvariant P) (holds : P m past) {calls : List (Call κ π δ)}
    (unreset : ∀ s c rest, Visits Machine.call m calls s (c :: rest) → s.resetsOn c = false)
    (ran : calls.foldlM Machine.call m = .ok m') : P m' (past ++ m.ticking calls) := by
  induction calls generalizing m past with
  | nil =>
    obtain rfl := foldlM_nil_eq_ok.mp ran
    rwa [ticking, runLog, List.append_nil]
  | cons c calls ih =>
    obtain ⟨middle, called, rest⟩ := foldlM_cons_eq_ok.mp ran
    have first := h.call holds (unreset m c calls (.start m _)) called
    rw [ticking, runLog_cons_of_ok calls called, ← List.append_assoc]
    exact ih first (fun s c' rest' visits =>
      unreset s c' rest' (visits_cons.mpr (.inr ⟨middle, called, visits⟩))) rest

end TickInvariant

end Machine

end Famicom
