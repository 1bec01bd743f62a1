import NeurOS.Foundation.Locks

/-!
# Code in lockstep

Two pieces of code are in lockstep under a relation of states if, started on related
states, they take the same steps, keep the states related and end with related
values.
-/

namespace Foundation

namespace Code

variable {L σ α β γ δ : Type}

inductive Alike (R : σ -> σ -> Prop) (V : α -> β -> Prop) : Code L σ α -> Code L σ β -> Prop where
  | done {a : α} {b : β} (h : V a b) : Alike R V (.done a) (.done b)
  | panic (p : Panic) : Alike R V (.panic p) (.panic p)
  | cut : Alike R V .cut .cut
  | acquire (lock : L) {rest : Code L σ α} {rest' : Code L σ β} (h : Alike R V rest rest') :
      Alike R V (.acquire lock rest) (.acquire lock rest')
  | release (lock : L) {rest : Code L σ α} {rest' : Code L σ β} (h : Alike R V rest rest') :
      Alike R V (.release lock rest) (.release lock rest')
  | read {rest : σ -> Code L σ α} {rest' : σ -> Code L σ β}
      (h : forall s s', R s s' -> Alike R V (rest s) (rest' s')) :
      Alike R V (.read rest) (.read rest')
  | write {s s' : σ} {rest : Code L σ α} {rest' : Code L σ β} (hstate : R s s')
      (h : Alike R V rest rest') : Alike R V (.write s rest) (.write s' rest')

section Alike

variable {R : σ -> σ -> Prop} {V : α -> β -> Prop} {W : γ -> δ -> Prop}

/-- The induction is on the first code: the second takes its steps behind the same ones. -/
theorem alike_bind {code : Code L σ α} {code' : Code L σ β} {f : α -> Code L σ γ}
    {f' : β -> Code L σ δ} (h : Alike R V code code')
    (hrest : forall a b, V a b -> Alike R W (f a) (f' b)) :
    Alike R W (code >>= f) (code' >>= f') := by
  change Alike R W (code.bind f) (code'.bind f')
  induction h with
  | done h => exact hrest _ _ h
  | panic p => exact .panic p
  | cut => exact .cut
  | acquire lock _ ih => exact .acquire lock ih
  | release lock _ ih => exact .release lock ih
  | read _ ih => exact .read ih
  | write hstate _ ih => exact .write hstate ih

theorem alike_mono {V' : α -> β -> Prop} {code : Code L σ α} {code' : Code L σ β}
    (h : Alike R V code code') (hmono : forall a b, V a b -> V' a b) : Alike R V' code code' := by
  induction h with
  | done h => exact .done (hmono _ _ h)
  | panic p => exact .panic p
  | cut => exact .cut
  | acquire lock _ ih => exact .acquire lock ih
  | release lock _ ih => exact .release lock ih
  | read _ ih => exact .read ih
  | write hstate _ ih => exact .write hstate ih

theorem alike_pure {a : α} {b : β} (h : V a b) :
    Alike R V (pure a : Code L σ α) (pure b) :=
  .done h

theorem alike_get : Alike R R (get : Code L σ σ) get :=
  .read fun _ _ h => .done h

theorem alike_modify {f f' : σ -> σ} {V : Unit -> Unit -> Prop} (hV : V () ())
    (h : forall s s', R s s' -> R (f s) (f' s')) :
    Alike R V (modify f : Code L σ Unit) (modify f') :=
  .read fun s s' hs => .write (h s s' hs) (.done hV)

theorem alike_lift {outcome : Outcome α} {outcome' : Outcome β}
    (h : (exists a b, outcome = .ok a ∧ outcome' = .ok b ∧ V a b) ∨
      exists p, outcome = .error p ∧ outcome' = .error p) :
    Alike R V (lift outcome : Code L σ α) (lift outcome') := by
  rcases h with ⟨a, b, rfl, rfl, hab⟩ | ⟨p, rfl, rfl⟩
  · exact .done hab
  · exact .panic p

theorem alike_lift_self {V : α -> α -> Prop} {outcome : Outcome α}
    (h : forall a, outcome = .ok a -> V a a) :
    Alike R V (lift outcome : Code L σ α) (lift outcome) := by
  cases outcome with
  | ok a => exact .done (h a rfl)
  | error p => exact .panic p

theorem alike_locked {lock : L} {body : Code L σ α} {body' : Code L σ β}
    (h : Alike R V body body') : Alike R V (locked lock body) (locked lock body') := by
  have hbody : Alike R V (body >>= fun a => release lock (done ()) >>= fun _ => pure a)
      (body' >>= fun a => release lock (done ()) >>= fun _ => pure a) := by
    apply alike_bind h
    intro a b hab
    exact .release lock (.done hab)
  exact .acquire lock hbody

theorem alike_force {lock : L} {value : σ -> Option α} {store : σ -> α -> σ}
    {init : Code L σ α} {Good : α -> Prop} (hvalue : forall s s', R s s' -> value s = value s')
    (hgood : forall s s' a, R s s' -> value s = some a -> Good a)
    (hstore : forall s s' a, R s s' -> Good a -> R (store s a) (store s' a))
    (hinit : Alike R (fun a b => a = b ∧ Good a) init init) :
    Alike R (fun a b => a = b ∧ Good a) (force lock value store init)
      (force lock value store init) := by
  unfold force
  apply alike_bind alike_get
  intro s s' hs
  rw [<- hvalue s s' hs]
  cases hsome : value s with
  | some a => exact .done ⟨rfl, hgood s s' a hs hsome⟩
  | none =>
      apply alike_locked
      apply alike_bind hinit
      intro a b hab
      rcases hab with ⟨rfl, hgood⟩
      have hmodify : Alike R Eq (modify (store · a) : Code L σ Unit) (modify (store · a)) :=
        alike_modify rfl fun s s' hs => hstore s s' a hs hgood
      exact alike_bind hmodify fun _ _ _ => .done ⟨rfl, hgood⟩

theorem alike_forEach {f : α -> Code L σ Unit} (h : forall a, Alike R Eq (f a) (f a))
    (items : List α) : Alike R Eq (forEach f items) (forEach f items) := by
  induction items with
  | nil => exact .done rfl
  | cons a rest ih => exact alike_bind (h a) fun _ _ _ => ih

end Alike

end Code

end Foundation
