import NeurOS.Foundation.Outcome

/-!
# Unbounded loops

A loop with a guard and a body that may panic.  Running it takes a number of
passes as fuel; the result of a run that ends does not depend on the fuel.
-/

namespace Foundation

structure Loop (σ : Type u) where
  guard : σ -> Bool
  body : σ -> Outcome σ

namespace Loop

variable {σ : Type u} {α : Type v}

/-- The end of the loop, unless it takes more passes than the fuel. -/
def run (loop : Loop σ) : Nat -> σ -> Option (Outcome σ)
  | 0, _ => none
  | fuel + 1, s =>
      if loop.guard s then
        match loop.body s with
        | .ok s' => run loop fuel s'
        | .error e => some (.error e)
      else
        some (.ok s)

theorem run_stop {loop : Loop σ} {s : σ} (h : loop.guard s = false) (fuel : Nat) :
    loop.run (fuel + 1) s = some (.ok s) := by
  simp [run, h]

theorem run_pass {loop : Loop σ} {s s' : σ} (h : loop.guard s = true)
    (hbody : loop.body s = .ok s') (fuel : Nat) :
    loop.run (fuel + 1) s = loop.run fuel s' := by
  simp [run, h, hbody]

theorem run_fail {loop : Loop σ} {s : σ} {e : Panic} (h : loop.guard s = true)
    (hbody : loop.body s = .error e) (fuel : Nat) :
    loop.run (fuel + 1) s = some (.error e) := by
  simp [run, h, hbody]

theorem run_passes {loop : Loop σ} {states : Nat -> σ} {count : Nat}
    (h : forall i, i < count ->
      loop.guard (states i) = true ∧ loop.body (states i) = .ok (states (i + 1)))
    (fuel : Nat) : loop.run (fuel + count) (states 0) = loop.run fuel (states count) := by
  induction count generalizing fuel with
  | zero => rfl
  | succ count ih =>
      rcases h count (Nat.lt_succ_self count) with ⟨hguard, hbody⟩
      rw [← run_pass hguard hbody fuel, ← Nat.add_assoc, Nat.add_right_comm]
      exact ih (fun i hi => h i (Nat.lt_succ_of_lt hi)) (fuel + 1)

theorem run_more {loop : Loop σ} {fuel : Nat} {s : σ} {result : Outcome σ}
    (h : loop.run fuel s = some result) (more : Nat) :
    loop.run (fuel + more) s = some result := by
  induction fuel generalizing s with
  | zero => cases h
  | succ fuel ih =>
      rw [Nat.add_right_comm]
      unfold run at h ⊢
      by_cases hguard : loop.guard s = true
      · rw [if_pos hguard] at h ⊢
        cases hbody : loop.body s with
        | error e =>
            rw [hbody] at h
            exact h
        | ok s' =>
            rw [hbody] at h
            exact ih h
      · rw [if_neg hguard] at h ⊢
        exact h

theorem run_unique {loop : Loop σ} {fuel fuel' : Nat} {s : σ} {result result' : Outcome σ}
    (h : loop.run fuel s = some result) (h' : loop.run fuel' s = some result') :
    result = result' := by
  have hmore := run_more h fuel'
  rw [Nat.add_comm, run_more h' fuel] at hmore
  exact (Option.some.inj hmore).symm

/-- The states of a run in which the guard is tested. -/
inductive Visits (loop : Loop σ) : σ -> σ -> Prop where
  | start (s : σ) : Visits loop s s
  | pass {s s' last : σ} : loop.guard s = true -> loop.body s = .ok s' ->
      Visits loop s' last -> Visits loop s last

theorem visits_of_stop {loop : Loop σ} {s last : σ}
    (h : loop.guard s = true -> forall s', Not (loop.body s = .ok s'))
    (hvisits : loop.Visits s last) : last = s := by
  cases hvisits with
  | start => rfl
  | pass hguard hbody _ => exact absurd hbody (h hguard _)

theorem visits_of_pass {loop : Loop σ} {s s' last : σ} (hbody : loop.body s = .ok s')
    (hvisits : loop.Visits s last) : last = s ∨ loop.Visits s' last := by
  cases hvisits with
  | start => exact Or.inl rfl
  | pass _ hother hrest =>
      rw [hbody] at hother
      cases hother
      exact Or.inr hrest

theorem run_of_items {loop : Loop σ} (R : List α -> σ -> Prop)
    (hpass : forall item rest s, R (item :: rest) s ->
      loop.guard s = true ∧ exists s', loop.body s = .ok s' ∧ R rest s')
    (hstop : forall s, R [] s -> loop.guard s = false)
    {items : List α} {s : σ} (h : R items s) {fuel : Nat} (hfuel : items.length < fuel) :
    exists s', loop.run fuel s = some (.ok s') ∧ R [] s' := by
  induction items generalizing s fuel with
  | nil =>
      cases fuel with
      | zero => cases hfuel
      | succ fuel => exact ⟨s, run_stop (hstop s h) fuel, h⟩
  | cons item rest ih =>
      cases fuel with
      | zero => cases hfuel
      | succ fuel =>
          rcases hpass item rest s h with ⟨hguard, s', hbody, hrest⟩
          rw [run_pass hguard hbody]
          exact ih hrest (Nat.lt_of_succ_lt_succ hfuel)

end Loop

end Foundation
