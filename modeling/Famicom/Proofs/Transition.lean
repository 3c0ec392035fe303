import Mathlib.Data.List.Basic
import Mathlib.Data.List.Induction

/-!
# Runs of steps that may fail

A system whose inputs come one after the other, each moving its state or failing, makes a run when
it is given a list of inputs: `inputs.foldlM step s`. What can be seen of a run is a log, to which
every step adds what it does.

## Main definitions

* `Visits` — a run comes to a state with some of its inputs left
* `runLog` — the log of a run

## Main results

* `foldlM_append_eq_ok` — a run is a run of its first part and then one of the rest
* `visits_cons` — a run comes to its start, or to what the run after its first step comes to
* `Visits.of_append` — a run in two parts comes to what either part comes to
* `holds_of_replicate` — what a step keeps, such steps in a row keep
* `holds_of_run` — what every step of a run keeps, of its inputs so far, holds at its end
* `runLog_append_of_ok` — the log of a run is that of its first part and then that of the rest
* `runLog_isPrefix` — the log of the first part of a run begins that of the run
* `forall_mem_runLog` — what holds of what every step tells holds of all that is told
* `exists_visit_of_runLog` — what a log tells, some step of the run told
-/

namespace Famicom

variable {σ ι ε ω : Type}

theorem bind_eq_ok {α β : Type} {x : Except ε α} {f : α → Except ε β} {b : β} :
    x >>= f = .ok b ↔ ∃ a, x = .ok a ∧ f a = .ok b := by
  cases x with
  | error e => simp [bind, Except.bind]
  | ok a => simp [bind, Except.bind]

theorem toOption_eq_some {α : Type} {x : Except ε α} {a : α} : x.toOption = some a ↔ x = .ok a := by
  cases x <;> simp [Except.toOption]

theorem pure_eq_ok {α : Type} (a : α) : (pure a : Except ε α) = .ok a :=
  rfl

section Run

variable {step : σ → ι → Except ε σ}

theorem foldlM_nil_eq_ok {s s' : σ} : ([] : List ι).foldlM step s = .ok s' ↔ s = s' := by
  simp [List.foldlM_nil, pure_eq_ok]

theorem foldlM_cons_eq_ok {input : ι} {inputs : List ι} {s s'' : σ} :
    (input :: inputs).foldlM step s = .ok s'' ↔
      ∃ s', step s input = .ok s' ∧ inputs.foldlM step s' = .ok s'' := by
  rw [List.foldlM_cons, bind_eq_ok]

theorem foldlM_append_eq_ok {before after : List ι} {s s'' : σ} :
    (before ++ after).foldlM step s = .ok s'' ↔
      ∃ s', before.foldlM step s = .ok s' ∧ after.foldlM step s' = .ok s'' := by
  rw [List.foldlM_append, bind_eq_ok]

/-- A run comes to a state in which some of its inputs are left. -/
def Visits (step : σ → ι → Except ε σ) (start : σ) (inputs : List ι) (s : σ) (rest : List ι) :
    Prop :=
  ∃ before, inputs = before ++ rest ∧ before.foldlM step start = .ok s

theorem Visits.start (start : σ) (inputs : List ι) : Visits step start inputs start inputs :=
  ⟨[], rfl, rfl⟩

theorem visits_nil {start s : σ} {rest : List ι} :
    Visits step start [] s rest ↔ s = start ∧ rest = [] := by
  constructor
  · rintro ⟨before, split, run⟩
    obtain ⟨rfl, rfl⟩ := List.append_eq_nil_iff.mp split.symm
    exact ⟨(foldlM_nil_eq_ok.mp run).symm, rfl⟩
  · rintro ⟨rfl, rfl⟩
    exact .start s []

theorem visits_cons {start s : σ} {input : ι} {inputs rest : List ι} :
    Visits step start (input :: inputs) s rest ↔
      (s = start ∧ rest = input :: inputs) ∨
        ∃ s', step start input = .ok s' ∧ Visits step s' inputs s rest := by
  constructor
  · rintro ⟨before, split, run⟩
    cases before with
    | nil => exact .inl ⟨(foldlM_nil_eq_ok.mp run).symm, split.symm⟩
    | cons first before =>
      rw [List.cons_append] at split
      obtain ⟨rfl, tail⟩ := List.cons.inj split
      obtain ⟨s', moved, run⟩ := foldlM_cons_eq_ok.mp run
      exact .inr ⟨s', moved, before, tail, run⟩
  · rintro (⟨rfl, rfl⟩ | ⟨s', moved, before, rfl, run⟩)
    · exact .start s _
    · exact ⟨input :: before, rfl, foldlM_cons_eq_ok.mpr ⟨s', moved, run⟩⟩

/-- A run goes on as before if it is given more inputs. -/
theorem Visits.append {start s : σ} {inputs rest : List ι} (h : Visits step start inputs s rest)
    (more : List ι) : Visits step start (inputs ++ more) s (rest ++ more) := by
  obtain ⟨before, rfl, run⟩ := h
  exact ⟨before, List.append_assoc .., run⟩

/-- What a run in two parts comes to, it comes to before the end of the first part or in the second
one. -/
theorem Visits.of_append {start s : σ} {first second rest : List ι}
    (h : Visits step start (first ++ second) s rest) :
    (∃ left, left ≠ [] ∧ Visits step start first s left ∧ rest = left ++ second) ∨
      ∃ middle, first.foldlM step start = .ok middle ∧ Visits step middle second s rest := by
  obtain ⟨before, split, run⟩ := h
  rcases List.append_eq_append_iff.mp split with ⟨more, rfl, rfl⟩ | ⟨left, rfl, rfl⟩
  · obtain ⟨middle, ran, run⟩ := foldlM_append_eq_ok.mp run
    exact .inr ⟨middle, ran, more, rfl, run⟩
  · by_cases none_left : left = []
    · subst none_left
      exact .inr ⟨s, by rwa [List.append_nil], .start s second⟩
    · exact .inl ⟨left, none_left, ⟨before, rfl, run⟩, rfl⟩

/-- In a run of one input over and over, that is the input that comes next. -/
theorem Visits.eq_of_replicate {start s : σ} {input next : ι} {n : Nat} {rest : List ι}
    (h : Visits step start (List.replicate n input) s (next :: rest)) : next = input := by
  obtain ⟨before, split, -⟩ := h
  exact List.eq_of_mem_replicate (split ▸ List.mem_append_right before List.mem_cons_self)

/-- What a step keeps, a run of such steps over and over keeps. -/
theorem holds_of_replicate {P : σ → Prop} {input : ι}
    (keeps : ∀ {s s' : σ}, P s → step s input = .ok s' → P s') {s s' : σ} {n : Nat} (h : P s)
    (run : (List.replicate n input).foldlM step s = .ok s') : P s' := by
  induction n generalizing s with
  | zero => exact foldlM_nil_eq_ok.mp run ▸ h
  | succ n ih =>
    obtain ⟨middle, first, rest⟩ := foldlM_cons_eq_ok.mp run
    exact ih (keeps h first) rest

/-- A relation between states and the inputs that led to them holds at the end of a run, if it holds
at the start and every step of the run keeps it. -/
theorem holds_of_run {R : σ → List ι → Prop} {start s : σ} {inputs : List ι} (begins : R start [])
    (keeps : ∀ {t t' : σ} {before rest : List ι} {input : ι},
      Visits step start inputs t (input :: rest) → R t before → step t input = .ok t' →
        R t' (before ++ [input]))
    (run : inputs.foldlM step start = .ok s) : R s inputs := by
  induction inputs using List.reverseRecOn generalizing s with
  | nil => exact foldlM_nil_eq_ok.mp run ▸ begins
  | append_singleton inputs input ih =>
    obtain ⟨middle, first, last⟩ := foldlM_append_eq_ok.mp run
    obtain ⟨s', moved, ended⟩ := foldlM_cons_eq_ok.mp last
    obtain rfl := foldlM_nil_eq_ok.mp ended
    have held : R middle inputs := ih (fun visit => keeps (visit.append [input])) first
    exact keeps ⟨inputs, rfl, first⟩ held moved

end Run

section Log

/-- The log of a run, to which every step adds what it does. A failing step ends it. -/
def runLog (step : σ → ι → Except ε σ) (log : σ → ι → List ω) : List ι → σ → List ω
  | [], _ => []
  | input :: inputs, s =>
    log s input ++
      match step s input with
      | .ok s' => runLog step log inputs s'
      | .error _ => []

variable {step : σ → ι → Except ε σ} {log : σ → ι → List ω}

theorem runLog_cons_of_ok {input : ι} (inputs : List ι) {s s' : σ} (h : step s input = .ok s') :
    runLog step log (input :: inputs) s = log s input ++ runLog step log inputs s' := by
  rw [runLog, h]

/-- The log of a run is that of its first part and then that of the rest. -/
theorem runLog_append_of_ok {before : List ι} (after : List ι) {s s' : σ}
    (run : before.foldlM step s = .ok s') :
    runLog step log (before ++ after) s = runLog step log before s ++ runLog step log after s' := by
  induction before generalizing s with
  | nil =>
    obtain rfl := foldlM_nil_eq_ok.mp run
    rfl
  | cons input before ih =>
    obtain ⟨middle, moved, rest⟩ := foldlM_cons_eq_ok.mp run
    rw [List.cons_append, runLog_cons_of_ok _ moved, runLog_cons_of_ok _ moved, ih rest,
      List.append_assoc]

/-- The log of a run begins with that of its first part, even if that comes to no end. -/
theorem runLog_isPrefix (before after : List ι) (s : σ) :
    runLog step log before s <+: runLog step log (before ++ after) s := by
  induction before generalizing s with
  | nil => exact List.nil_prefix
  | cons input before ih =>
    -- Both logs begin with what the first step tells, and end there if it fails.
    rw [List.cons_append, runLog, runLog, List.prefix_append_right_inj]
    cases step s input with
    | ok s' => exact ih s'
    | error e => exact List.nil_prefix

/-- What holds of what every step tells holds of all that is told. -/
theorem forall_mem_runLog {P : ω → Prop} (told : ∀ s input, ∀ entry ∈ log s input, P entry)
    (inputs : List ι) (s : σ) : ∀ entry ∈ runLog step log inputs s, P entry := by
  induction inputs generalizing s with
  | nil =>
    intro entry member
    cases member
  | cons input inputs ih =>
    intro entry member
    rw [runLog] at member
    rcases List.mem_append.mp member with here | later
    · exact told s input entry here
    · cases moved : step s input with
      | ok s' =>
        rw [moved] at later
        exact ih s' entry later
      | error e => simp [moved] at later

/-- What a log tells, some step of the run told, after what was told before. -/
theorem exists_visit_of_runLog {inputs : List ι} {s : σ} {told later : List ω} {entry : ω}
    (split : runLog step log inputs s = told ++ entry :: later) :
    ∃ before input rest s' front back, inputs = before ++ input :: rest ∧
      before.foldlM step s = .ok s' ∧ log s' input = front ++ entry :: back ∧
      runLog step log before s ++ front = told := by
  induction inputs generalizing s told with
  | nil => exact absurd split.symm (List.append_ne_nil_of_right_ne_nil told (List.cons_ne_nil _ _))
  | cons input inputs ih =>
    -- Either the first step told it, or the run after that step did.
    have first_or_rest : (∃ back, log s input = told ++ entry :: back) ∨
        ∃ more, told = log s input ++ more ∧
          (match step s input with
            | .ok s' => runLog step log inputs s'
            | .error _ => []) = more ++ entry :: later := by
      rcases List.append_eq_append_iff.mp split with ⟨more, before, rest⟩ | ⟨back, first, rest⟩
      · exact .inr ⟨more, before, rest⟩
      · cases back with
        | nil =>
          rw [List.append_nil] at first
          exact .inr ⟨[], by rw [List.append_nil, first], rest.symm⟩
        | cons entry' back =>
          obtain ⟨rfl, -⟩ := List.cons.inj rest
          exact .inl ⟨back, first⟩
    rcases first_or_rest with ⟨back, first⟩ | ⟨more, rfl, rest⟩
    · exact ⟨[], input, inputs, s, told, back, rfl, rfl, first, rfl⟩
    · cases moved : step s input with
      | error e =>
        rw [moved] at rest
        exact absurd rest.symm
          (List.append_ne_nil_of_right_ne_nil more (List.cons_ne_nil _ _))
      | ok s₁ =>
        rw [moved] at rest
        obtain ⟨before, input', rest', s', front, back, rfl, run, here, earlier⟩ := ih rest
        refine ⟨input :: before, input', rest', s', front, back, rfl,
          foldlM_cons_eq_ok.mpr ⟨s₁, moved, run⟩, here, ?_⟩
        rw [runLog_cons_of_ok _ moved, List.append_assoc, earlier]

end Log

end Famicom
