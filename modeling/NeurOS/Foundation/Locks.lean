import Mathlib.Logic.Relation
import NeurOS.Foundation.Outcome

/-!
# Code under locks on one processor

Code reads and writes a state, takes locks and gives them back, and may panic with
locks taken.  One processor runs a stack of frames, the top one at a time: an
interrupt starts its handler on top of idle code, and a panic starts the panic
handler on top of the frame that panicked, whose locks stay taken.  Taking a lock
that a frame of the stack holds waits for ever.

The end of a piece of code is computed from the locks that are held elsewhere.  A
discipline is a condition on the ends of the handlers, and carries over to every
run: no frame waits.
-/

namespace Foundation

/-- Code over locks and a state.  What is cut is not followed further. -/
inductive Code (L σ α : Type) where
  | done (a : α)
  | panic (p : Panic)
  | cut
  | acquire (lock : L) (rest : Code L σ α)
  | release (lock : L) (rest : Code L σ α)
  | read (rest : σ -> Code L σ α)
  | write (s : σ) (rest : Code L σ α)

namespace Code

variable {L σ α β γ : Type}

def bind : Code L σ α -> (α -> Code L σ β) -> Code L σ β
  | done a, f => f a
  | panic p, _ => panic p
  | cut, _ => cut
  | acquire lock rest, f => acquire lock (rest.bind f)
  | release lock rest, f => release lock (rest.bind f)
  | read rest, f => read fun s => (rest s).bind f
  | write s rest, f => write s (rest.bind f)

instance : Monad (Code L σ) where
  pure := done
  bind := bind

def get : Code L σ σ :=
  read done

def modify (f : σ -> σ) : Code L σ Unit :=
  read fun s => write (f s) (done ())

def lift : Outcome α -> Code L σ α
  | .ok a => done a
  | .error p => panic p

def locked (lock : L) (body : Code L σ α) : Code L σ α := do
  acquire lock (done ())
  let a ← body
  release lock (done ())
  pure a

/-- The value of a static that its first use makes, under a lock of its own. -/
def force (lock : L) (value : σ -> Option α) (store : σ -> α -> σ) (init : Code L σ α) :
    Code L σ α := do
  match value (← get) with
  | some a => pure a
  | none =>
      locked lock do
        let a ← init
        modify fun s => store s a
        pure a

def forEach (f : α -> Code L σ Unit) : List α -> Code L σ Unit
  | [] => pure ()
  | a :: rest => do
      f a
      forEach f rest

end Code

/-!
# Ends
-/

/-- How code ends: with a value or a panic, the locks taken and the state, or before. -/
inductive Ending (L σ α : Type) where
  | done (a : α) (held : List L) (s : σ)
  | panicked (p : Panic) (held : List L) (s : σ)
  | cut
  | waits

namespace Ending

variable {L σ α β γ : Type}

def bind : Ending L σ α -> (α -> List L -> σ -> Ending L σ β) -> Ending L σ β
  | done a held s, f => f a held s
  | panicked p held s, _ => panicked p held s
  | cut, _ => cut
  | waits, _ => waits

@[simp] theorem done_bind (a : α) (held : List L) (s : σ)
    (f : α -> List L -> σ -> Ending L σ β) : (done a held s).bind f = f a held s := rfl

@[simp] theorem panicked_bind (p : Panic) (held : List L) (s : σ)
    (f : α -> List L -> σ -> Ending L σ β) : (panicked p held s).bind f = panicked p held s := rfl

@[simp] theorem cut_bind (f : α -> List L -> σ -> Ending L σ β) :
    (cut : Ending L σ α).bind f = cut := rfl

@[simp] theorem waits_bind (f : α -> List L -> σ -> Ending L σ β) :
    (waits : Ending L σ α).bind f = waits := rfl

def Meets (Q : α -> List L -> σ -> Prop) (E : Panic -> List L -> σ -> Prop) :
    Ending L σ α -> Prop
  | done a held s => Q a held s
  | panicked p held s => E p held s
  | cut => True
  | waits => False

theorem meets_bind {Q : α -> List L -> σ -> Prop} {Q' : β -> List L -> σ -> Prop}
    {E E' : Panic -> List L -> σ -> Prop} {f : α -> List L -> σ -> Ending L σ β}
    {ending : Ending L σ α} (h : ending.Meets Q E)
    (hE : forall p held s, E p held s -> E' p held s)
    (hrest : forall a held s, Q a held s -> (f a held s).Meets Q' E') :
    (ending.bind f).Meets Q' E' := by
  cases ending with
  | done a held s => exact hrest a held s h
  | panicked p held s => exact hE p held s h
  | cut => exact trivial
  | waits => exact h

theorem meets_mono {Q Q' : α -> List L -> σ -> Prop} {E E' : Panic -> List L -> σ -> Prop}
    (hQ : forall a held s, Q a held s -> Q' a held s)
    (hE : forall p held s, E p held s -> E' p held s) {ending : Ending L σ α}
    (h : ending.Meets Q E) : ending.Meets Q' E' := by
  cases ending with
  | done a held s => exact hQ a held s h
  | panicked p held s => exact hE p held s h
  | cut => exact trivial
  | waits => exact h

end Ending

structure Free {L : Type} (blocked held : List L) (lock : L) : Prop where
  held : Not (lock ∈ held)
  blocked : Not (lock ∈ blocked)

theorem free_cons {L : Type} {blocked held : List L} {lock other : L} (h : Free blocked held lock)
    (hne : lock ≠ other) : Free blocked (other :: held) lock where
  held := by
    rw [List.mem_cons, not_or]
    exact ⟨hne, h.held⟩
  blocked := h.blocked

namespace Code

variable {L σ α β : Type} [DecidableEq L]

/-- The end of code, from the locks that frames below hold, the locks that it holds itself,
and the state. -/
def run (blocked : List L) : Code L σ α -> List L -> σ -> Ending L σ α
  | done a, held, s => .done a held s
  | panic p, held, s => .panicked p held s
  | cut, _, _ => .cut
  | acquire lock rest, held, s =>
      if lock ∈ held ∨ lock ∈ blocked then
        .waits
      else
        rest.run blocked (lock :: held) s
  | release lock rest, held, s => rest.run blocked (held.erase lock) s
  | read rest, held, s => (rest s).run blocked held s
  | write s rest, held, _ => rest.run blocked held s

section Run

variable {blocked held : List L} {s : σ}

theorem run_bind (code : Code L σ α) (f : α -> Code L σ β) :
    (code >>= f).run blocked held s =
      (code.run blocked held s).bind fun a held s => (f a).run blocked held s := by
  change (code.bind f).run blocked held s = _
  induction code generalizing held s with
  | done a => rfl
  | panic p => rfl
  | cut => rfl
  | acquire lock rest ih =>
      rw [bind, run, run]
      split
      · rfl
      · exact ih
  | release lock rest ih => exact ih
  | read rest ih => exact ih s
  | write s rest ih => exact ih

theorem run_bind_done {code : Code L σ α} {a : α} {held' : List L} {s' : σ}
    (h : code.run blocked held s = .done a held' s') (f : α -> Code L σ β) :
    (code >>= f).run blocked held s = (f a).run blocked held' s' := by
  rw [run_bind, h, Ending.done_bind]

theorem bind_meets {Q : α -> List L -> σ -> Prop} {Q' : β -> List L -> σ -> Prop}
    {E E' : Panic -> List L -> σ -> Prop} {code : Code L σ α} {f : α -> Code L σ β}
    (h : (code.run blocked held s).Meets Q E) (hE : forall p held s, E p held s -> E' p held s)
    (hrest : forall a held s, Q a held s -> ((f a).run blocked held s).Meets Q' E') :
    ((code >>= f).run blocked held s).Meets Q' E' := by
  rw [run_bind]
  exact Ending.meets_bind h hE hrest

@[simp] theorem run_pure (a : α) :
    (pure a : Code L σ α).run blocked held s = .done a held s := rfl

@[simp] theorem run_get : (get : Code L σ σ).run blocked held s = .done s held s := rfl

@[simp] theorem run_modify (f : σ -> σ) :
    (modify f : Code L σ Unit).run blocked held s = .done () held (f s) := rfl

theorem run_lift_ok {outcome : Outcome α} {a : α} (h : outcome = .ok a) :
    (lift outcome : Code L σ α).run blocked held s = .done a held s := by
  rw [h]
  rfl

theorem run_acquire {lock : L} (h : Free blocked held lock) (rest : Code L σ α) :
    (acquire lock rest).run blocked held s = rest.run blocked (lock :: held) s := by
  rw [run, if_neg (not_or.mpr ⟨h.held, h.blocked⟩)]

theorem run_locked {lock : L} (h : Free blocked held lock) (body : Code L σ α) :
    (locked lock body).run blocked held s =
      (body.run blocked (lock :: held) s).bind fun a held s =>
        .done a (held.erase lock) s := by
  unfold locked
  rw [run_bind, run_acquire h, run, Ending.done_bind, run_bind]
  rfl

theorem run_locked_done {lock : L} (h : Free blocked held lock) {body : Code L σ α} {a : α}
    {s' : σ} (hbody : body.run blocked (lock :: held) s = .done a (lock :: held) s') :
    (locked lock body).run blocked held s = .done a held s' := by
  rw [run_locked h, hbody, Ending.done_bind, List.erase_cons_head]

theorem locked_meets {lock : L} (h : Free blocked held lock) {body : Code L σ α}
    {Q : α -> σ -> Prop} {E : Panic -> List L -> σ -> Prop}
    (hbody : (body.run blocked (lock :: held) s).Meets
      (fun a held' s => held' = lock :: held ∧ Q a s) E) :
    ((locked lock body).run blocked held s).Meets (fun a held' s => held' = held ∧ Q a s) E := by
  rw [run_locked h]
  refine Ending.meets_bind hbody (fun _ _ _ hE => hE) ?_
  rintro a held' s ⟨rfl, hQ⟩
  exact ⟨List.erase_cons_head .., hQ⟩

theorem run_force_some {lock : L} {value : σ -> Option α} {a : α} (h : value s = some a)
    (store : σ -> α -> σ) (init : Code L σ α) :
    (force lock value store init).run blocked held s = .done a held s := by
  unfold force
  rw [run_bind, run_get, Ending.done_bind, h]
  rfl

theorem run_force_none {lock : L} (hfree : Free blocked held lock) {value : σ -> Option α}
    (h : value s = none) (store : σ -> α -> σ) (init : Code L σ α) :
    (force lock value store init).run blocked held s =
      (init.run blocked (lock :: held) s).bind fun a held s =>
        .done a (held.erase lock) (store s a) := by
  unfold force
  rw [run_bind, run_get, Ending.done_bind, h]
  simp only
  rw [run_locked hfree, run_bind]
  cases init.run blocked (lock :: held) s <;> rfl

theorem run_force_done {lock : L} (hfree : Free blocked held lock) {value : σ -> Option α}
    (h : value s = none) (store : σ -> α -> σ) {init : Code L σ α} {a : α} {s' : σ}
    (hinit : init.run blocked (lock :: held) s = .done a (lock :: held) s') :
    (force lock value store init).run blocked held s = .done a held (store s' a) := by
  rw [run_force_none hfree h, hinit, Ending.done_bind, List.erase_cons_head]

theorem run_forEach_cons (f : α -> Code L σ Unit) (a : α) (rest : List α) :
    (forEach f (a :: rest)).run blocked held s =
      ((f a).run blocked held s).bind fun _ held s => (forEach f rest).run blocked held s :=
  run_bind (f a) fun _ => forEach f rest

end Run

end Code

/-!
# The processor
-/

structure Frame (L σ : Type) where
  code : Code L σ Unit
  held : List L

/-- The state, and the frames from the running one down. -/
structure System (L σ : Type) where
  data : σ
  frames : List (Frame L σ)

def heldBy {L σ : Type} (frames : List (Frame L σ)) : List L :=
  frames.flatMap Frame.held

/-- What the code does on an interrupt and on a panic. -/
structure Processor (L σ ι : Type) where
  handler : ι -> Code L σ Unit
  onPanic : Panic -> Code L σ Unit

inductive Event (ι : Type) where
  | interrupt (i : ι)
  | panic (p : Panic)

namespace Processor

variable {L σ ι : Type} [DecidableEq L]

/-- One step of the running frame, an interrupt of idle code, or a panic.  Only events that are
accepted in the state ahead of them happen. -/
inductive Step (processor : Processor L σ ι) (accepts : Event ι -> σ -> Prop) :
    System L σ -> System L σ -> Prop where
  | acquire {s : σ} {lock : L} {rest : Code L σ Unit} {held : List L}
      {below : List (Frame L σ)} (h : Not (lock ∈ held)) (hbelow : Not (lock ∈ heldBy below)) :
      Step processor accepts ⟨s, ⟨.acquire lock rest, held⟩ :: below⟩
        ⟨s, ⟨rest, lock :: held⟩ :: below⟩
  | release {s : σ} {lock : L} {rest : Code L σ Unit} {held : List L}
      {below : List (Frame L σ)} :
      Step processor accepts ⟨s, ⟨.release lock rest, held⟩ :: below⟩
        ⟨s, ⟨rest, held.erase lock⟩ :: below⟩
  | read {s : σ} {rest : σ -> Code L σ Unit} {held : List L} {below : List (Frame L σ)} :
      Step processor accepts ⟨s, ⟨.read rest, held⟩ :: below⟩ ⟨s, ⟨rest s, held⟩ :: below⟩
  | write {s s' : σ} {rest : Code L σ Unit} {held : List L} {below : List (Frame L σ)} :
      Step processor accepts ⟨s, ⟨.write s' rest, held⟩ :: below⟩ ⟨s', ⟨rest, held⟩ :: below⟩
  | panics {s : σ} {p : Panic} {held : List L} {below : List (Frame L σ)}
      (h : accepts (.panic p) s) :
      Step processor accepts ⟨s, ⟨.panic p, held⟩ :: below⟩
        ⟨s, ⟨processor.onPanic p, []⟩ :: ⟨.panic p, held⟩ :: below⟩
  | interrupted {s : σ} {i : ι} {held : List L} (h : accepts (.interrupt i) s) :
      Step processor accepts ⟨s, [⟨.done (), held⟩]⟩
        ⟨s, [⟨processor.handler i, []⟩, ⟨.done (), held⟩]⟩
  | returns {s : σ} {held held' : List L} {below : List (Frame L σ)} :
      Step processor accepts ⟨s, ⟨.done (), held⟩ :: ⟨.done (), held'⟩ :: below⟩
        ⟨s, ⟨.done (), held ++ held'⟩ :: below⟩

def Reaches (processor : Processor L σ ι) (accepts : Event ι -> σ -> Prop) :
    System L σ -> System L σ -> Prop :=
  Relation.ReflTransGen (Step processor accepts)

def Waits (system : System L σ) : Prop :=
  exists s lock rest held below,
    system = ⟨s, ⟨.acquire lock rest, held⟩ :: below⟩ ∧ (lock ∈ held ∨ lock ∈ heldBy below)

/-!
# Running a frame to its end
-/

section Frame

variable {processor : Processor L σ ι} {accepts : Event ι -> σ -> Prop}
variable {blocked : List L} {below : List (Frame L σ)}

/-- From a system on, the running frame gets to an end of its code above the frames below, or
to where it waits. -/
def Arrives (processor : Processor L σ ι) (accepts : Event ι -> σ -> Prop)
    (below : List (Frame L σ)) (system : System L σ) : Ending L σ Unit -> Prop
  | .done _ held s => processor.Reaches accepts system ⟨s, ⟨.done (), held⟩ :: below⟩
  | .panicked p held s => processor.Reaches accepts system ⟨s, ⟨.panic p, held⟩ :: below⟩
  | .cut => True
  | .waits => exists waiting, processor.Reaches accepts system waiting ∧ Waits waiting

theorem arrives_step {system system' : System L σ} {ending : Ending L σ Unit}
    (hstep : processor.Step accepts system system')
    (h : processor.Arrives accepts below system' ending) :
    processor.Arrives accepts below system ending := by
  cases ending with
  | done a held s => exact .head hstep h
  | panicked p held s => exact .head hstep h
  | cut => exact trivial
  | waits =>
      rcases h with ⟨waiting, hrest, hwaits⟩
      exact ⟨waiting, .head hstep hrest, hwaits⟩

/-- The induction is on the code: each step of the frame is one of its constructors. -/
theorem arrives (hbelow : heldBy below = blocked) (code : Code L σ Unit) (held : List L)
    (s : σ) :
    processor.Arrives accepts below ⟨s, ⟨code, held⟩ :: below⟩ (code.run blocked held s) := by
  induction code generalizing held s with
  | done a => exact .refl
  | panic p => exact .refl
  | cut => exact trivial
  | acquire lock rest ih =>
      rw [Code.run]
      split
      · rename_i htaken
        rw [← hbelow] at htaken
        exact ⟨_, .refl, s, lock, rest, held, below, rfl, htaken⟩
      · rename_i hfree
        rw [not_or, ← hbelow] at hfree
        exact arrives_step (.acquire hfree.1 hfree.2) (ih (lock :: held) s)
  | release lock rest ih => exact arrives_step .release (ih (held.erase lock) s)
  | read rest ih => exact arrives_step .read (ih s held s)
  | write s' rest ih => exact arrives_step .write (ih held s')

end Frame

/-!
# Disciplines
-/

/-- Idle code holds no lock.  A handler ends idle or broken, and the panic handler, started on
what a panic leaves, ends without a panic. -/
structure Discipline (processor : Processor L σ ι) (accepts : Event ι -> σ -> Prop)
    (Idle : σ -> Prop) (Broken : Panic -> List L -> σ -> Prop) (Final : σ -> Prop) : Prop where
  handler : forall i s, Idle s -> accepts (.interrupt i) s ->
    ((processor.handler i).run [] [] s).Meets (fun _ held s => held = [] ∧ Idle s) Broken
  onPanic : forall p held s, Broken p held s -> accepts (.panic p) s ->
    ((processor.onPanic p).run held [] s).Meets (fun _ _ s => Final s) (fun _ _ _ => False)

inductive Disciplined (Idle : σ -> Prop) (Broken : Panic -> List L -> σ -> Prop)
    (Final : σ -> Prop) : System L σ -> Prop where
  | alone {s : σ} {code : Code L σ Unit} {held : List L}
      (h : (code.run [] held s).Meets (fun _ held s => held = [] ∧ Idle s) Broken) :
      Disciplined Idle Broken Final ⟨s, [⟨code, held⟩]⟩
  | handling {s : σ} {code : Code L σ Unit} {held : List L}
      (h : (code.run [] held s).Meets (fun _ held s => held = [] ∧ Idle s) Broken) :
      Disciplined Idle Broken Final ⟨s, [⟨code, held⟩, ⟨.done (), []⟩]⟩
  | panicking {s : σ} {code : Code L σ Unit} {p : Panic} {held taken : List L}
      {below : List (Frame L σ)} (hbelow : heldBy below = [])
      (h : (code.run taken held s).Meets (fun _ _ s => Final s) (fun _ _ _ => False)) :
      Disciplined Idle Broken Final ⟨s, ⟨code, held⟩ :: ⟨.panic p, taken⟩ :: below⟩

section Discipline

variable {processor : Processor L σ ι} {accepts : Event ι -> σ -> Prop}
variable {Idle : σ -> Prop} {Broken : Panic -> List L -> σ -> Prop} {Final : σ -> Prop}

theorem disciplined_step (hdiscipline : Discipline processor accepts Idle Broken Final)
    {system system' : System L σ} (h : Disciplined Idle Broken Final system)
    (hstep : processor.Step accepts system system') :
    Disciplined Idle Broken Final system' := by
  cases h with
  | alone h =>
      cases hstep with
      | acquire hfree hbelow =>
          rw [Code.run, if_neg (by simp [hfree])] at h
          exact .alone h
      | release => exact .alone h
      | read => exact .alone h
      | write => exact .alone h
      | panics haccepts => exact .panicking rfl (hdiscipline.onPanic _ _ _ h haccepts)
      | interrupted haccepts =>
          rcases h with ⟨rfl, hidle⟩
          exact .handling (hdiscipline.handler _ _ hidle haccepts)
  | handling h =>
      cases hstep with
      | acquire hfree hbelow =>
          rw [Code.run, if_neg (by simp [hfree])] at h
          exact .handling h
      | release => exact .handling h
      | read => exact .handling h
      | write => exact .handling h
      | panics haccepts => exact .panicking rfl (hdiscipline.onPanic _ _ _ h haccepts)
      | returns =>
          rcases h with ⟨rfl, hidle⟩
          exact .alone ⟨rfl, hidle⟩
  | panicking hempty h =>
      cases hstep with
      | acquire hfree hbelow =>
          unfold heldBy at hbelow hempty
          rw [List.flatMap_cons, hempty, List.append_nil] at hbelow
          rw [Code.run, if_neg (not_or.mpr ⟨hfree, hbelow⟩)] at h
          exact .panicking hempty h
      | release => exact .panicking hempty h
      | read => exact .panicking hempty h
      | write => exact .panicking hempty h
      | panics haccepts => exact h.elim

theorem disciplined_reaches (hdiscipline : Discipline processor accepts Idle Broken Final)
    {system system' : System L σ} (h : Disciplined Idle Broken Final system)
    (hreaches : processor.Reaches accepts system system') :
    Disciplined Idle Broken Final system' := by
  induction hreaches with
  | refl => exact h
  | tail _ hstep ih => exact disciplined_step hdiscipline ih hstep

theorem not_waits_of_disciplined {system : System L σ}
    (h : Disciplined Idle Broken Final system) : Not (Waits system) := by
  rintro ⟨s, lock, rest, held, below, rfl, hwaits⟩
  cases h with
  | alone h =>
      rw [Code.run, if_pos (by simpa [heldBy] using hwaits)] at h
      exact h
  | handling h =>
      rw [Code.run, if_pos (by simpa [heldBy] using hwaits)] at h
      exact h
  | panicking hempty h =>
      unfold heldBy at hwaits hempty
      rw [List.flatMap_cons, hempty, List.append_nil] at hwaits
      rw [Code.run, if_pos hwaits] at h
      exact h

theorem broken_of_disciplined {s : σ} {taken : List L} {p : Panic} {below : List (Frame L σ)}
    (h : Disciplined Idle Broken Final ⟨s, ⟨.panic p, taken⟩ :: below⟩) :
    Broken p taken s ∧ heldBy below = [] := by
  cases h with
  | alone h => exact ⟨h, rfl⟩
  | handling h => exact ⟨h, rfl⟩
  | panicking hempty h => exact h.elim

theorem final_of_disciplined {s : σ} {held taken : List L} {p : Panic}
    {below : List (Frame L σ)}
    (h : Disciplined Idle Broken Final ⟨s, ⟨.done (), held⟩ :: ⟨.panic p, taken⟩ :: below⟩) :
    Final s := by
  cases h with
  | panicking hempty h => exact h

end Discipline

end Processor

end Foundation
