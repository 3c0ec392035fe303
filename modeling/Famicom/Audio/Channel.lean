/-!
# The five voices

The sound unit has five voices. Whatever there is one of for each voice (a listener's switch, a
waveform tap, a level) is a `PerChannel`.

## Main definitions

* `Channel` — a voice
* `PerChannel` — a value for every voice

## Main results

* `PerChannel.get_set` — a change of one voice is seen at that voice and at no other
-/

namespace Famicom.Audio

/-- A voice of the sound unit. -/
inductive Channel where
  | pulse1
  | pulse2
  | triangle
  | noise
  | dmc
  deriving DecidableEq, Repr

/-- The voices in their order. -/
def Channel.all : List Channel :=
  [.pulse1, .pulse2, .triangle, .noise, .dmc]

/-- A value for every voice. -/
structure PerChannel (α : Type) where
  pulse1 : α
  pulse2 : α
  triangle : α
  noise : α
  dmc : α
  deriving DecidableEq, Repr

namespace PerChannel

variable {α β γ : Type}

/-- The same value for every voice. -/
def uniform (a : α) : PerChannel α :=
  ⟨a, a, a, a, a⟩

/-- The value of one voice. -/
def get (p : PerChannel α) : Channel → α
  | .pulse1 => p.pulse1
  | .pulse2 => p.pulse2
  | .triangle => p.triangle
  | .noise => p.noise
  | .dmc => p.dmc

/-- Changes the value of one voice. -/
def set (p : PerChannel α) (channel : Channel) (a : α) : PerChannel α :=
  match channel with
  | .pulse1 => { p with pulse1 := a }
  | .pulse2 => { p with pulse2 := a }
  | .triangle => { p with triangle := a }
  | .noise => { p with noise := a }
  | .dmc => { p with dmc := a }

/-- Applies a function to the value of every voice. -/
def map (f : α → β) (p : PerChannel α) : PerChannel β :=
  ⟨f p.pulse1, f p.pulse2, f p.triangle, f p.noise, f p.dmc⟩

/-- Applies a function that may fail to the value of every voice, in their order. -/
def mapM {ε : Type} (f : α → Except ε β) (p : PerChannel α) : Except ε (PerChannel β) := do
  pure ⟨← f p.pulse1, ← f p.pulse2, ← f p.triangle, ← f p.noise, ← f p.dmc⟩

/-- Combines two values voice by voice. -/
def zipWith (f : α → β → γ) (p : PerChannel α) (q : PerChannel β) : PerChannel γ :=
  ⟨f p.pulse1 q.pulse1, f p.pulse2 q.pulse2, f p.triangle q.triangle, f p.noise q.noise,
    f p.dmc q.dmc⟩

/-- Every voice with its value, in order. -/
def entries (p : PerChannel α) : List (Channel × α) :=
  Channel.all.map fun channel => (channel, p.get channel)

@[simp] theorem get_uniform (a : α) (channel : Channel) : (uniform a).get channel = a := by
  cases channel <;> rfl

@[simp] theorem get_map (f : α → β) (p : PerChannel α) (channel : Channel) :
    (p.map f).get channel = f (p.get channel) := by
  cases channel <;> rfl

@[simp] theorem get_zipWith (f : α → β → γ) (p : PerChannel α) (q : PerChannel β)
    (channel : Channel) : (p.zipWith f q).get channel = f (p.get channel) (q.get channel) := by
  cases channel <;> rfl

theorem get_set (p : PerChannel α) (channel other : Channel) (a : α) :
    (p.set channel a).get other = if other = channel then a else p.get other := by
  cases channel <;> cases other <;> rfl

end PerChannel

end Famicom.Audio
