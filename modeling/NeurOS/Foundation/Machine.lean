import NeurOS.Foundation.Outcome
import Mathlib.Data.List.Infix

/-!
# Machines that answer events

A machine consumes one event at a time, answers it with an observation and may
panic.  A run feeds a list of events and collects the observations.  The rules
below are the ones every run-level result uses: runs compose, an invariant of
the step is an invariant of the run, a step that never panics gives runs that
never panic, and a step simulated by an abstract model gives a simulated run.
-/

namespace Foundation

structure Machine (σ ε ω : Type) where
  step : σ -> ε -> Outcome (σ × ω)

namespace Machine

variable {σ ε ω : Type}

def run (M : Machine σ ε ω) : σ -> List ε -> Outcome (σ × List ω)
  | s, [] => .ok (s, [])
  | s, event :: rest => do
      let (s', answer) ← M.step s event
      let (final, answers) ← M.run s' rest
      .ok (final, answer :: answers)

/-!
# Composition
-/

@[simp] theorem run_nil (M : Machine σ ε ω) (s : σ) :
    M.run s [] = .ok (s, []) := rfl

theorem run_cons_eq_ok_iff {M : Machine σ ε ω} {s final : σ} {event : ε}
    {rest : List ε} {answers : List ω} :
    M.run s (event :: rest) = .ok (final, answers) <->
      exists s' answer tail, M.step s event = .ok (s', answer) ∧
        M.run s' rest = .ok (final, tail) ∧ answers = answer :: tail := by
  constructor
  · intro h
    rcases Outcome.bind_eq_ok_iff.mp h with ⟨⟨s', answer⟩, hstep, hrest⟩
    rcases Outcome.bind_eq_ok_iff.mp hrest with ⟨⟨final', tail⟩, htail, hok⟩
    cases hok
    exact ⟨s', answer, tail, hstep, htail, rfl⟩
  · intro h
    rcases h with ⟨s', answer, tail, hstep, htail, hanswers⟩
    simp [run, hstep, htail, hanswers]

theorem exists_run_cons_iff {M : Machine σ ε ω} {s : σ} {event : ε} {rest : List ε} :
    (exists final answers, M.run s (event :: rest) = .ok (final, answers)) <->
      exists s' answer, M.step s event = .ok (s', answer) ∧
        exists final answers, M.run s' rest = .ok (final, answers) := by
  constructor
  · intro h
    rcases h with ⟨final, answers, hrun⟩
    rcases run_cons_eq_ok_iff.mp hrun with ⟨s', answer, tail, hstep, htail, _⟩
    exact ⟨s', answer, hstep, final, tail, htail⟩
  · intro h
    rcases h with ⟨s', answer, hstep, final, tail, htail⟩
    exact ⟨final, answer :: tail,
      run_cons_eq_ok_iff.mpr ⟨s', answer, tail, hstep, htail, rfl⟩⟩

theorem run_single_eq_ok_iff {M : Machine σ ε ω} {s final : σ} {event : ε}
    {answers : List ω} :
    M.run s [event] = .ok (final, answers) <->
      exists answer, M.step s event = .ok (final, answer) ∧ answers = [answer] := by
  rw [run_cons_eq_ok_iff]
  constructor
  · intro h
    rcases h with ⟨s', answer, tail, hstep, htail, hanswers⟩
    cases htail
    exact ⟨answer, hstep, hanswers⟩
  · intro h
    rcases h with ⟨answer, hstep, hanswers⟩
    exact ⟨final, answer, [], hstep, rfl, hanswers⟩

theorem run_length {M : Machine σ ε ω} {s final : σ} {events : List ε} {answers : List ω}
    (h : M.run s events = .ok (final, answers)) : answers.length = events.length := by
  induction events generalizing s answers with
  | nil =>
      cases h
      rfl
  | cons event rest ih =>
      rcases run_cons_eq_ok_iff.mp h with ⟨s', answer, tail, _, htail, hanswers⟩
      rw [hanswers, List.length_cons, List.length_cons, ih htail]

theorem run_append_eq_ok_iff {M : Machine σ ε ω} {s final : σ}
    {first second : List ε} {answers : List ω} :
    M.run s (first ++ second) = .ok (final, answers) <->
      exists mid front back, M.run s first = .ok (mid, front) ∧
        M.run mid second = .ok (final, back) ∧ answers = front ++ back := by
  induction first generalizing s answers with
  | nil => simp
  | cons event rest ih =>
      rw [List.cons_append, run_cons_eq_ok_iff]
      constructor
      · intro h
        rcases h with ⟨s', answer, tail, hstep, htail, rfl⟩
        rcases ih.mp htail with ⟨mid, front, back, hfront, hback, rfl⟩
        exact ⟨mid, answer :: front, back,
          run_cons_eq_ok_iff.mpr ⟨s', answer, front, hstep, hfront, rfl⟩, hback, rfl⟩
      · intro h
        rcases h with ⟨mid, front, back, hfront, hback, rfl⟩
        rcases run_cons_eq_ok_iff.mp hfront with
          ⟨s', answer, tail, hstep, htail, rfl⟩
        exact ⟨s', answer, tail ++ back, hstep,
          ih.mpr ⟨mid, tail, back, htail, hback, rfl⟩, rfl⟩

/-!
# Invariants and totality
-/

def Preserves (M : Machine σ ε ω) (Inv : σ -> Prop) : Prop :=
  forall s event s' answer, Inv s -> M.step s event = .ok (s', answer) -> Inv s'

def Total (M : Machine σ ε ω) (Inv : σ -> Prop) : Prop :=
  forall s event, Inv s -> exists s' answer, M.step s event = .ok (s', answer)

theorem run_preserves {M : Machine σ ε ω} {Inv : σ -> Prop}
    (hpres : M.Preserves Inv) {s final : σ} {events : List ε} {answers : List ω}
    (hs : Inv s) (h : M.run s events = .ok (final, answers)) : Inv final := by
  induction events generalizing s answers with
  | nil =>
      cases h
      exact hs
  | cons event rest ih =>
      rcases run_cons_eq_ok_iff.mp h with ⟨s', answer, tail, hstep, htail, rfl⟩
      exact ih (hpres s event s' answer hs hstep) htail

theorem run_total {M : Machine σ ε ω} {Inv : σ -> Prop}
    (hpres : M.Preserves Inv) (htotal : M.Total Inv) {s : σ} (hs : Inv s)
    (events : List ε) :
    exists final answers, M.run s events = .ok (final, answers) := by
  induction events generalizing s with
  | nil => exact ⟨s, [], rfl⟩
  | cons event rest ih =>
      rcases htotal s event hs with ⟨s', answer, hstep⟩
      rcases ih (hpres s event s' answer hs hstep) with ⟨final, tail, htail⟩
      exact ⟨final, answer :: tail,
        run_cons_eq_ok_iff.mpr ⟨s', answer, tail, hstep, htail, rfl⟩⟩

/-!
# Simulation

An abstract model is given by its own total step; each answer of the machine
says which abstract events it stands for.
-/

def replay (astep : τ -> α -> τ) (label : ω -> List α) (a : τ)
    (answers : List ω) : τ :=
  (answers.flatMap label).foldl astep a

theorem run_simulates {τ α : Type} {M : Machine σ ε ω} {Inv : σ -> Prop}
    {abs : σ -> τ} {astep : τ -> α -> τ} {label : ω -> List α}
    (hpres : M.Preserves Inv)
    (hsim : forall s event s' answer, Inv s -> M.step s event = .ok (s', answer) ->
      abs s' = (label answer).foldl astep (abs s))
    {s final : σ} {events : List ε} {answers : List ω}
    (hs : Inv s) (h : M.run s events = .ok (final, answers)) :
    abs final = replay astep label (abs s) answers := by
  induction events generalizing s answers with
  | nil =>
      cases h
      rfl
  | cons event rest ih =>
      rcases run_cons_eq_ok_iff.mp h with ⟨s', answer, tail, hstep, htail, rfl⟩
      rw [ih (hpres s event s' answer hs hstep) htail,
        hsim s event s' answer hs hstep]
      simp [replay, List.foldl_append]

end Machine

end Foundation
