import NeurOS.Foundation.Machine

/-!
# Isolation

Events that a part of a machine does not see can be dropped from a run.  The rule is
stated for a step, as two conditions on a relation between a state that takes all
events and one that takes the visible ones; the runs follow by induction.
-/

namespace Foundation

namespace Machine

variable {σ ε ω : Type}

def answersTo (visible : ε -> Bool) : List ε -> List ω -> List ω
  | [], _ => []
  | _ :: _, [] => []
  | event :: rest, answer :: answers =>
      if visible event then answer :: answersTo visible rest answers
      else answersTo visible rest answers

def Throughout (M : Machine σ ε ω) (Allowed : σ -> ε -> Prop) : σ -> List ε -> Prop
  | _, [] => True
  | s, event :: rest => Allowed s event ∧
      forall s' answer, M.step s event = .ok (s', answer) -> M.Throughout Allowed s' rest

/-- A hidden event keeps a state related to one that does not take it, and a visible event is
answered alike by related states. -/
structure Isolates (M : Machine σ ε ω) (visible : ε -> Bool) (Allowed : σ -> ε -> Prop)
    (Same : σ -> σ -> Prop) : Prop where
  hidden : forall s t event s' answer, visible event = false -> Same s t ->
    M.step s event = .ok (s', answer) -> Same s' t
  seen : forall s t event s' answer, visible event = true -> Allowed s event -> Same s t ->
    M.step s event = .ok (s', answer) ->
      exists t', M.step t event = .ok (t', answer) ∧ Same s' t'

theorem throughout_true (M : Machine σ ε ω) (s : σ) (events : List ε) :
    M.Throughout (fun _ _ => True) s events := by
  induction events generalizing s with
  | nil => trivial
  | cons event rest ih => exact ⟨trivial, fun s' _ _ => ih s'⟩

theorem run_visible {M : Machine σ ε ω} {visible : ε -> Bool} {Allowed : σ -> ε -> Prop}
    {Same : σ -> σ -> Prop} (h : M.Isolates visible Allowed Same) {s t s' : σ}
    {events : List ε} {answers : List ω} (hsame : Same s t)
    (hallowed : M.Throughout Allowed s events)
    (hrun : M.run s events = .ok (s', answers)) :
    exists t', M.run t (events.filter visible) = .ok (t', answersTo visible events answers) ∧
      Same s' t' := by
  induction events generalizing s t answers with
  | nil =>
      cases hrun
      exact ⟨t, rfl, hsame⟩
  | cons event rest ih =>
      rcases run_cons_eq_ok_iff.mp hrun with ⟨middle, answer, tail, hstep, htail, rfl⟩
      rcases hallowed with ⟨hevent, hrest⟩
      cases hvisible : visible event with
      | false =>
          have hmiddle := h.hidden s t event middle answer hvisible hsame hstep
          rcases ih hmiddle (hrest middle answer hstep) htail with ⟨t', hrun', hsame'⟩
          refine ⟨t', ?_, hsame'⟩
          rw [List.filter_cons_of_neg (by simp [hvisible]), hrun', answersTo, hvisible]
          rfl
      | true =>
          rcases h.seen s t event middle answer hvisible hevent hsame hstep with
            ⟨next, hnext, hmiddle⟩
          rcases ih hmiddle (hrest middle answer hstep) htail with ⟨t', hrun', hsame'⟩
          refine ⟨t', ?_, hsame'⟩
          rw [List.filter_cons_of_pos hvisible, answersTo, hvisible]
          exact run_cons_eq_ok_iff.mpr ⟨next, answer, _, hnext, hrun', rfl⟩

theorem flatten_answersTo {α : Type} {M : Machine σ ε (List α)} {visible : ε -> Bool}
    (hsilent : forall s event s' answer, visible event = false ->
      M.step s event = .ok (s', answer) -> answer = [])
    {s s' : σ} {events : List ε} {answers : List (List α)}
    (hrun : M.run s events = .ok (s', answers)) :
    (answersTo visible events answers).flatten = answers.flatten := by
  induction events generalizing s answers with
  | nil =>
      cases hrun
      rfl
  | cons event rest ih =>
      rcases run_cons_eq_ok_iff.mp hrun with ⟨middle, answer, tail, hstep, htail, rfl⟩
      rw [answersTo]
      cases hvisible : visible event with
      | false =>
          rw [hsilent s event middle answer hvisible hstep]
          exact ih htail
      | true => exact congrArg (answer ++ ·) (ih htail)

end Machine

end Foundation
