import NeurOS.Foundation.Locks

/-!
# Code that follows a computation

A reference says what code computes without its locks and its state.  Code follows
the reference if it ends with a value where the reference has one, panics where the
reference panics, and never waits.  Sequences of code follow sequences of references.
-/

namespace Foundation

namespace Ending

variable {L σ α β γ δ : Type}

/-- The end has a value that fits the one of the reference, or the panic of the reference. -/
def Follows (outcome : Outcome β) (Q : β -> α -> List L -> σ -> Prop) : Ending L σ α -> Prop
  | done a held s => exists b, outcome = .ok b ∧ Q b a held s
  | panicked p _ _ => outcome = .error p
  | cut => False
  | waits => False

theorem follows_bind {outcome : Outcome β} {Q : β -> α -> List L -> σ -> Prop}
    {g : β -> Outcome δ} {Q' : δ -> γ -> List L -> σ -> Prop}
    {f : α -> List L -> σ -> Ending L σ γ} {ending : Ending L σ α}
    (h : ending.Follows outcome Q)
    (hrest : forall b a held s, Q b a held s -> (f a held s).Follows (g b) Q') :
    (ending.bind f).Follows (outcome >>= g) Q' := by
  cases ending with
  | done a held s =>
      rcases h with ⟨b, rfl, hend⟩
      exact hrest b a held s hend
  | panicked p held s =>
      cases outcome with
      | ok b => cases h
      | error e =>
          change (.error e : Outcome β) = .error p at h
          cases h
          rfl
  | cut => exact h.elim
  | waits => exact h.elim

theorem follows_mono {outcome : Outcome β} {Q Q' : β -> α -> List L -> σ -> Prop}
    {ending : Ending L σ α} (h : ending.Follows outcome Q)
    (hmono : forall b a held s, Q b a held s -> Q' b a held s) : ending.Follows outcome Q' := by
  cases ending with
  | done a held s =>
      rcases h with ⟨b, hb, hend⟩
      exact ⟨b, hb, hmono b a held s hend⟩
  | panicked p held s => exact h
  | cut => exact h
  | waits => exact h

theorem follows_map {outcome : Outcome β} {Q : β -> α -> List L -> σ -> Prop} {g : β -> δ}
    {Q' : δ -> α -> List L -> σ -> Prop} {ending : Ending L σ α} (h : ending.Follows outcome Q)
    (hmono : forall b a held s, Q b a held s -> Q' (g b) a held s) :
    ending.Follows (outcome >>= fun b => .ok (g b)) Q' := by
  cases ending with
  | done a held s =>
      rcases h with ⟨b, rfl, hend⟩
      exact ⟨g b, rfl, hmono b a held s hend⟩
  | panicked p held s =>
      change outcome = .error p at h
      rw [h]
      rfl
  | cut => exact h
  | waits => exact h

theorem done_of_follows {outcome : Outcome β} {Q : β -> α -> List L -> σ -> Prop}
    {ending : Ending L σ α} (h : ending.Follows outcome Q) {b : β} (hb : outcome = .ok b) :
    exists a held s, ending = .done a held s ∧ Q b a held s := by
  cases ending with
  | done a held s =>
      rcases h with ⟨b', hb', hend⟩
      rw [hb] at hb'
      cases hb'
      exact ⟨a, held, s, rfl, hend⟩
  | panicked p held s =>
      change outcome = .error p at h
      rw [hb] at h
      cases h
  | cut => exact h.elim
  | waits => exact h.elim

theorem panicked_of_follows {outcome : Outcome β} {Q : β -> α -> List L -> σ -> Prop}
    {ending : Ending L σ α} (h : ending.Follows outcome Q) {p : Panic}
    (hp : outcome = .error p) : exists held s, ending = .panicked p held s := by
  cases ending with
  | done a held s =>
      rcases h with ⟨b, hb, _⟩
      rw [hp] at hb
      cases hb
  | panicked p' held s =>
      change outcome = .error p' at h
      rw [hp] at h
      cases h
      exact ⟨held, s, rfl⟩
  | cut => exact h.elim
  | waits => exact h.elim

end Ending

namespace Code

variable {L σ α β γ δ : Type} [DecidableEq L] {blocked held : List L} {s : σ}

theorem follows_bind {outcome : Outcome β} {Q : β -> α -> List L -> σ -> Prop}
    {g : β -> Outcome δ} {Q' : δ -> γ -> List L -> σ -> Prop} {code : Code L σ α}
    {f : α -> Code L σ γ} (h : (code.run blocked held s).Follows outcome Q)
    (hrest : forall b a held s, Q b a held s -> ((f a).run blocked held s).Follows (g b) Q') :
    ((code >>= f).run blocked held s).Follows (outcome >>= g) Q' := by
  rw [run_bind]
  exact Ending.follows_bind h hrest

theorem follows_then {outcome : Outcome β} {Q : β -> α -> List L -> σ -> Prop}
    {Q' : β -> γ -> List L -> σ -> Prop} {code : Code L σ α} {f : α -> Code L σ γ}
    (h : (code.run blocked held s).Follows outcome Q)
    (hrest : forall b a held s, Q b a held s -> exists c held' s',
      (f a).run blocked held s = .done c held' s' ∧ Q' b c held' s') :
    ((code >>= f).run blocked held s).Follows outcome Q' := by
  rw [run_bind]
  cases hcode : code.run blocked held s with
  | done a held s =>
      rw [hcode] at h
      rcases h with ⟨b, hb, hend⟩
      rcases hrest b a held s hend with ⟨c, held', s', hrun, hend'⟩
      rw [Ending.done_bind, hrun]
      exact ⟨b, hb, hend'⟩
  | panicked p held s =>
      rw [hcode] at h
      exact h
  | cut =>
      rw [hcode] at h
      exact h.elim
  | waits =>
      rw [hcode] at h
      exact h.elim

theorem follows_lift (outcome : Outcome α) :
    ((lift outcome : Code L σ α).run blocked held s).Follows outcome
      fun b a held' s' => b = a ∧ held = held' ∧ s = s' := by
  cases outcome with
  | ok a => exact ⟨a, rfl, rfl, rfl, rfl⟩
  | error p => rfl

theorem follows_locked {outcome : Outcome β} {Q : β -> α -> σ -> Prop} {lock : L}
    (hfree : Free blocked held lock) {body : Code L σ α}
    (h : (body.run blocked (lock :: held) s).Follows outcome fun b a held' s' =>
      held' = lock :: held ∧ Q b a s') :
    ((locked lock body).run blocked held s).Follows outcome fun b a held' s' =>
      held' = held ∧ Q b a s' := by
  rw [run_locked hfree]
  cases hbody : body.run blocked (lock :: held) s with
  | done a held' s' =>
      rw [hbody] at h
      rcases h with ⟨b, hb, rfl, hend⟩
      exact ⟨b, hb, List.erase_cons_head .., hend⟩
  | panicked p held' s' =>
      rw [hbody] at h
      exact h
  | cut =>
      rw [hbody] at h
      exact h.elim
  | waits =>
      rw [hbody] at h
      exact h.elim

end Code

end Foundation
