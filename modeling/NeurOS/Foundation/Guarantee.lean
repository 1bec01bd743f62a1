import NeurOS.Foundation.Locks

/-!
# What code guarantees to the code it interrupts

A guarantee relates the state ahead of a write to the state behind it.  Code keeps
to a guarantee if all of its writes do, whatever the locks, and an end condition
says what it leaves behind.  Where the handlers and the panic handler keep to a
guarantee that is a preorder, so does every step of every run.
-/

namespace Foundation

namespace Code

variable {L σ α β : Type}

/-- From a state on, the writes keep to the guarantee and the end meets its condition. -/
def Keeps (R : σ -> σ -> Prop) (Q : α -> σ -> Prop) : Code L σ α -> σ -> Prop
  | done a, s => Q a s
  | panic _, _ => True
  | cut, _ => True
  | acquire _ rest, s => rest.Keeps R Q s
  | release _ rest, s => rest.Keeps R Q s
  | read rest, s => (rest s).Keeps R Q s
  | write s' rest, s => R s s' ∧ rest.Keeps R Q s'

variable {R : σ -> σ -> Prop} {Q : α -> σ -> Prop} {Q' : β -> σ -> Prop} {s : σ}

theorem keeps_bind {code : Code L σ α} {f : α -> Code L σ β} (h : code.Keeps R Q s)
    (hrest : forall a s, Q a s -> (f a).Keeps R Q' s) : (code >>= f).Keeps R Q' s := by
  change (code.bind f).Keeps R Q' s
  induction code generalizing s with
  | done a => exact hrest a s h
  | panic p => exact trivial
  | cut => exact trivial
  | acquire lock rest ih => exact ih h
  | release lock rest ih => exact ih h
  | read rest ih => exact ih s h
  | write s' rest ih => exact ⟨h.1, ih h.2⟩

theorem keeps_mono {code : Code L σ α} {Q₂ : α -> σ -> Prop} (h : code.Keeps R Q s)
    (hmono : forall a s, Q a s -> Q₂ a s) : code.Keeps R Q₂ s := by
  induction code generalizing s with
  | done a => exact hmono a s h
  | panic p => exact trivial
  | cut => exact trivial
  | acquire lock rest ih => exact ih h
  | release lock rest ih => exact ih h
  | read rest ih => exact ih s h
  | write s' rest ih => exact ⟨h.1, ih h.2⟩

theorem keeps_related (hrefl : forall s, R s s)
    (htrans : forall s s' s'', R s s' -> R s' s'' -> R s s'') {code : Code L σ α}
    (h : code.Keeps R Q s) : code.Keeps R (fun a s' => R s s' ∧ Q a s') s := by
  induction code generalizing s with
  | done a => exact ⟨hrefl s, h⟩
  | panic p => exact trivial
  | cut => exact trivial
  | acquire lock rest ih => exact ih h
  | release lock rest ih => exact ih h
  | read rest ih => exact ih s h
  | write s' rest ih =>
      refine ⟨h.1, keeps_mono (ih h.2) ?_⟩
      intro a s'' hend
      rcases hend with ⟨hrelated, hend⟩
      exact ⟨htrans s s' s'' h.1 hrelated, hend⟩

theorem keeps_pure {a : α} (h : Q a s) : (pure a : Code L σ α).Keeps R Q s := h

theorem keeps_bind_get {f : σ -> Code L σ β} (h : (f s).Keeps R Q' s) :
    (get >>= f).Keeps R Q' s := h

theorem keeps_modify {f : σ -> σ} {Q : Unit -> σ -> Prop} (h : R s (f s)) (hend : Q () (f s)) :
    (modify f : Code L σ Unit).Keeps R Q s :=
  ⟨h, hend⟩

theorem keeps_lift {outcome : Outcome α} (h : forall a, outcome = .ok a -> Q a s) :
    (lift outcome : Code L σ α).Keeps R Q s := by
  cases outcome with
  | ok a => exact h a rfl
  | error p => exact trivial

theorem keeps_bind_lift {outcome : Outcome α} {f : α -> Code L σ β}
    (h : forall a, outcome = .ok a -> (f a).Keeps R Q' s) :
    (lift outcome >>= f).Keeps R Q' s := by
  cases outcome with
  | ok a => exact h a rfl
  | error p => exact trivial

theorem keeps_locked {lock : L} {body : Code L σ α} (h : body.Keeps R Q s) :
    (locked lock body).Keeps R Q s := by
  change (body >>= fun a => release lock (done ()) >>= fun _ => pure a).Keeps R Q s
  exact keeps_bind h fun a s' hend => hend

theorem keeps_force {lock : L} {value : σ -> Option α} {store : σ -> α -> σ}
    {init : Code L σ α} (hsome : forall a, value s = some a -> Q a s)
    (hnone : value s = none -> init.Keeps R (fun a s => R s (store s a) ∧ Q a (store s a)) s) :
    (force lock value store init).Keeps R Q s := by
  unfold force
  apply keeps_bind_get
  cases hvalue : value s with
  | some a => exact hsome a hvalue
  | none => exact keeps_locked (keeps_bind (hnone hvalue) fun a s h => h)

theorem keeps_bind_force_some {lock : L} {value : σ -> Option α} {store : σ -> α -> σ}
    {init : Code L σ α} {a : α} (h : value s = some a) {f : α -> Code L σ β}
    (hrest : (f a).Keeps R Q' s) : (force lock value store init >>= f).Keeps R Q' s := by
  apply keeps_bind (keeps_force (Q := fun other s' => a = other ∧ s = s') _ _)
  · intro _ _ hend
    rcases hend with ⟨rfl, rfl⟩
    exact hrest
  · intro other hother
    exact ⟨Option.some.inj (h.symm.trans hother), rfl⟩
  · intro hnone
    exact nomatch h.symm.trans hnone

theorem keeps_forEach {f : α -> Code L σ Unit} {items : List α}
    {Inv : List α -> σ -> Prop} (hinit : Inv items s)
    (hpass : forall a rest s, Inv (a :: rest) s -> (f a).Keeps R (fun _ s => Inv rest s) s) :
    (forEach f items).Keeps R (fun _ s => Inv [] s) s := by
  induction items generalizing s with
  | nil => exact hinit
  | cons a rest ih => exact keeps_bind (hpass a rest s hinit) fun _ s h => ih h

end Code

namespace Processor

variable {L σ ι : Type} [DecidableEq L]

/-- The handlers and the panic handler keep to a preorder that keeps an invariant, and the panic
handler meets its end condition. -/
structure Guarantee (processor : Processor L σ ι) (accepts : Event ι -> σ -> Prop)
    (Inv : σ -> Prop) (R : σ -> σ -> Prop) (Final : σ -> Prop) : Prop where
  refl : forall s, R s s
  trans : forall s s' s'', R s s' -> R s' s'' -> R s s''
  inv : forall s s', Inv s -> R s s' -> Inv s'
  handler : forall i s, Inv s -> accepts (.interrupt i) s ->
    (processor.handler i).Keeps R (fun _ _ => True) s
  onPanic : forall p s, Inv s -> accepts (.panic p) s ->
    (processor.onPanic p).Keeps R (fun _ s => Final s) s

/-- The stacks of a run under a guarantee: the running frame keeps to it, the frames below it have
ended or panicked, and the running frame above a panic is the panic handler. -/
inductive Guarded (R : σ -> σ -> Prop) (Final : σ -> Prop) : System L σ -> Prop where
  | alone {s : σ} {code : Code L σ Unit} {held : List L}
      (h : code.Keeps R (fun _ _ => True) s) : Guarded R Final ⟨s, [⟨code, held⟩]⟩
  | handling {s : σ} {code : Code L σ Unit} {held taken : List L}
      (h : code.Keeps R (fun _ _ => True) s) :
      Guarded R Final ⟨s, [⟨code, held⟩, ⟨.done (), taken⟩]⟩
  | panicking {s : σ} {code : Code L σ Unit} {p : Panic} {held taken : List L}
      {below : List (Frame L σ)} (h : code.Keeps R (fun _ s => Final s) s) :
      Guarded R Final ⟨s, ⟨code, held⟩ :: ⟨.panic p, taken⟩ :: below⟩

section Guarantee

variable {processor : Processor L σ ι} {accepts : Event ι -> σ -> Prop}
variable {Inv : σ -> Prop} {R : σ -> σ -> Prop} {Final : σ -> Prop}

theorem guarded_step (hguarantee : Guarantee processor accepts Inv R Final)
    {system system' : System L σ} (h : Guarded R Final system) (hinv : Inv system.data)
    (hstep : processor.Step accepts system system') :
    R system.data system'.data ∧ Guarded R Final system' := by
  cases h with
  | alone h =>
      cases hstep with
      | acquire _ _ => exact ⟨hguarantee.refl _, .alone h⟩
      | release => exact ⟨hguarantee.refl _, .alone h⟩
      | read => exact ⟨hguarantee.refl _, .alone h⟩
      | write => exact ⟨h.1, .alone h.2⟩
      | panics haccepts =>
          exact ⟨hguarantee.refl _, .panicking (hguarantee.onPanic _ _ hinv haccepts)⟩
      | interrupted haccepts =>
          exact ⟨hguarantee.refl _, .handling (hguarantee.handler _ _ hinv haccepts)⟩
  | handling h =>
      cases hstep with
      | acquire _ _ => exact ⟨hguarantee.refl _, .handling h⟩
      | release => exact ⟨hguarantee.refl _, .handling h⟩
      | read => exact ⟨hguarantee.refl _, .handling h⟩
      | write => exact ⟨h.1, .handling h.2⟩
      | panics haccepts =>
          exact ⟨hguarantee.refl _, .panicking (hguarantee.onPanic _ _ hinv haccepts)⟩
      | returns => exact ⟨hguarantee.refl _, .alone trivial⟩
  | panicking h =>
      cases hstep with
      | acquire _ _ => exact ⟨hguarantee.refl _, .panicking h⟩
      | release => exact ⟨hguarantee.refl _, .panicking h⟩
      | read => exact ⟨hguarantee.refl _, .panicking h⟩
      | write => exact ⟨h.1, .panicking h.2⟩
      | panics haccepts =>
          exact ⟨hguarantee.refl _, .panicking (hguarantee.onPanic _ _ hinv haccepts)⟩

/-- Every run keeps to the guarantee from its first state to its last. -/
theorem guarded_reaches (hguarantee : Guarantee processor accepts Inv R Final)
    {system system' : System L σ} (h : Guarded R Final system) (hinv : Inv system.data)
    (hreaches : processor.Reaches accepts system system') :
    R system.data system'.data ∧ Guarded R Final system' := by
  induction hreaches with
  | refl => exact ⟨hguarantee.refl _, h⟩
  | tail _ hstep ih =>
      have hmiddle := hguarantee.inv _ _ hinv ih.1
      rcases guarded_step hguarantee ih.2 hmiddle hstep with ⟨hkeeps, hguarded⟩
      exact ⟨hguarantee.trans _ _ _ ih.1 hkeeps, hguarded⟩

omit [DecidableEq L] in
theorem final_of_guarded {s : σ} {held taken : List L} {p : Panic} {below : List (Frame L σ)}
    (h : Guarded R Final ⟨s, ⟨.done (), held⟩ :: ⟨.panic p, taken⟩ :: below⟩) : Final s := by
  cases h with
  | panicking h => exact h

end Guarantee

end Processor

end Foundation
