import NeurOS.Foundation.Lockstep

/-!
# Exceptions

An exception starts its handler on top of whatever runs, a handler of another
exception included, and its end resumes what it struck.  Its handler takes one lock
and changes the state.  Struck while the lock is taken, it waits for ever, and nothing
goes on below it; otherwise it changes the state and is gone.

Where the code goes on in lockstep whatever exceptions do to the state, a run with
exceptions is a run without them as far as the relation of the states tells.
-/

namespace Foundation

structure Exceptions (L σ ε : Type) where
  handler : ε -> Code L σ Unit
  resumes : ε -> Bool

/-- The frame of the handler of an exception. -/
structure Trap (L σ ε : Type) where
  exception : ε
  code : Code L σ Unit
  held : List L

/-- A system with the handlers of the exceptions that struck it, from the running one down. -/
structure Trapped (L σ ε : Type) where
  data : σ
  traps : List (Trap L σ ε)
  frames : List (Frame L σ)

namespace Trapped

variable {L σ ε : Type}

def taken (self : Trapped L σ ε) : List L :=
  self.traps.flatMap Trap.held ++ heldBy self.frames

theorem taken_append (s : σ) (newer older : List (Trap L σ ε)) (frames : List (Frame L σ)) :
    taken ⟨s, newer ++ older, frames⟩ = newer.flatMap Trap.held ++ taken ⟨s, older, frames⟩ := by
  unfold taken
  rw [List.flatMap_append, List.append_assoc]

/-- Handlers of exceptions that are about to take a lock, above code that has taken it. -/
structure Stuck (lock : L) (system : Trapped L σ ε) : Prop where
  waits : exists newer older, system.traps = newer ++ older ∧ newer ≠ [] ∧
    (forall trap, trap ∈ newer -> exists rest, trap.code = .acquire lock rest) ∧
    lock ∈ taken ⟨system.data, older, system.frames⟩

theorem stuck_of_taken {lock : L} {s : σ} {e : ε} {rest : Code L σ Unit}
    {traps : List (Trap L σ ε)} {frames : List (Frame L σ)} {code : Code L σ Unit}
    (h : lock ∈ taken ⟨s, traps, frames⟩) (hcode : code = .acquire lock rest) :
    Stuck lock ⟨s, ⟨e, code, []⟩ :: traps, frames⟩ := by
  refine ⟨[⟨e, code, []⟩], traps, rfl, List.cons_ne_nil _ _, ?_, h⟩
  intro trap hmem
  rw [List.mem_singleton.mp hmem]
  exact ⟨rest, hcode⟩

end Trapped

namespace Processor

open Trapped (taken Stuck)

variable {L σ ι ε : Type}

section Traps

variable [DecidableEq L]

/-- One step of the system without a handler of an exception, an exception, or one step of the
running handler of an exception. -/
inductive TrapStep (processor : Processor L σ ι) (exceptions : Exceptions L σ ε)
    (accepts : Event ι -> σ -> Prop) : Trapped L σ ε -> Trapped L σ ε -> Prop where
  | runs {s s' : σ} {frames frames' : List (Frame L σ)}
      (h : processor.Step accepts ⟨s, frames⟩ ⟨s', frames'⟩) :
      TrapStep processor exceptions accepts ⟨s, [], frames⟩ ⟨s', [], frames'⟩
  | strikes {s : σ} {traps : List (Trap L σ ε)} {frames : List (Frame L σ)} (e : ε) :
      TrapStep processor exceptions accepts ⟨s, traps, frames⟩
        ⟨s, ⟨e, exceptions.handler e, []⟩ :: traps, frames⟩
  | acquire {s : σ} {e : ε} {lock : L} {rest : Code L σ Unit} {held : List L}
      {traps : List (Trap L σ ε)} {frames : List (Frame L σ)} (h : Not (lock ∈ held))
      (hbelow : Not (lock ∈ taken ⟨s, traps, frames⟩)) :
      TrapStep processor exceptions accepts ⟨s, ⟨e, .acquire lock rest, held⟩ :: traps, frames⟩
        ⟨s, ⟨e, rest, lock :: held⟩ :: traps, frames⟩
  | release {s : σ} {e : ε} {lock : L} {rest : Code L σ Unit} {held : List L}
      {traps : List (Trap L σ ε)} {frames : List (Frame L σ)} :
      TrapStep processor exceptions accepts ⟨s, ⟨e, .release lock rest, held⟩ :: traps, frames⟩
        ⟨s, ⟨e, rest, held.erase lock⟩ :: traps, frames⟩
  | read {s : σ} {e : ε} {rest : σ -> Code L σ Unit} {held : List L}
      {traps : List (Trap L σ ε)} {frames : List (Frame L σ)} :
      TrapStep processor exceptions accepts ⟨s, ⟨e, .read rest, held⟩ :: traps, frames⟩
        ⟨s, ⟨e, rest s, held⟩ :: traps, frames⟩
  | write {s s' : σ} {e : ε} {rest : Code L σ Unit} {held : List L}
      {traps : List (Trap L σ ε)} {frames : List (Frame L σ)} :
      TrapStep processor exceptions accepts ⟨s, ⟨e, .write s' rest, held⟩ :: traps, frames⟩
        ⟨s', ⟨e, rest, held⟩ :: traps, frames⟩
  | resumes {s : σ} {e : ε} {traps : List (Trap L σ ε)} {frames : List (Frame L σ)}
      (h : exceptions.resumes e = true) :
      TrapStep processor exceptions accepts ⟨s, ⟨e, .done (), []⟩ :: traps, frames⟩
        ⟨s, traps, frames⟩

def TrapReaches (processor : Processor L σ ι) (exceptions : Exceptions L σ ε)
    (accepts : Event ι -> σ -> Prop) : Trapped L σ ε -> Trapped L σ ε -> Prop :=
  Relation.ReflTransGen (TrapStep processor exceptions accepts)

variable {processor : Processor L σ ι} {exceptions : Exceptions L σ ε}
variable {accepts : Event ι -> σ -> Prop}

theorem trapReaches_of_reaches {system system' : System L σ}
    (h : processor.Reaches accepts system system') :
    TrapReaches processor exceptions accepts ⟨system.data, [], system.frames⟩
      ⟨system'.data, [], system'.frames⟩ := by
  induction h with
  | refl => exact .refl
  | tail _ hstep ih => exact .tail ih (.runs hstep)

/-!
# Struck while the lock is taken
-/

theorem stuck_step {lock : L} (hstart : forall e, exists rest,
      exceptions.handler e = .acquire lock rest) {system system' : Trapped L σ ε}
    (h : Stuck lock system) (hstep : TrapStep processor exceptions accepts system system') :
    Stuck lock system' ∧ system'.data = system.data ∧ system'.frames = system.frames ∧
      exists more, system'.traps = more ++ system.traps := by
  rcases h.waits with ⟨newer, older, htraps, hnewer, hcode, htaken⟩
  cases newer with
  | nil => exact absurd rfl hnewer
  | cons trap newer =>
      rcases hcode trap List.mem_cons_self with ⟨rest, htrap⟩
      cases hstep with
      | runs h => cases htraps
      | strikes e =>
          refine ⟨⟨_ :: trap :: newer, older, congrArg (List.cons _) htraps, List.cons_ne_nil _ _,
            ?_, htaken⟩, rfl, rfl, [_], rfl⟩
          intro other hmem
          rcases List.mem_cons.mp hmem with rfl | hmem
          · exact hstart e
          · exact hcode other hmem
      | acquire hheld hbelow =>
          cases htraps
          cases htrap
          apply absurd _ hbelow
          change lock ∈ taken ⟨_, newer ++ older, _⟩
          rw [Trapped.taken_append]
          exact List.mem_append_right _ htaken
      | release =>
          cases htraps
          cases htrap
      | read =>
          cases htraps
          cases htrap
      | write =>
          cases htraps
          cases htrap
      | resumes h =>
          cases htraps
          cases htrap

theorem stuck_reaches {lock : L} (hstart : forall e, exists rest,
      exceptions.handler e = .acquire lock rest) {system system' : Trapped L σ ε}
    (h : Stuck lock system) (hreaches : TrapReaches processor exceptions accepts system system') :
    Stuck lock system' ∧ system'.data = system.data ∧ system'.frames = system.frames ∧
      exists more, system'.traps = more ++ system.traps := by
  induction hreaches with
  | refl => exact ⟨h, rfl, rfl, [], rfl⟩
  | tail _ hstep ih =>
      rcases ih with ⟨hstuck, hdata, hframes, more, htraps⟩
      rcases stuck_step hstart hstuck hstep with ⟨hstuck', hdata', hframes', more', htraps'⟩
      refine ⟨hstuck', hdata'.trans hdata, hframes'.trans hframes, more' ++ more, ?_⟩
      rw [htraps', htraps, List.append_assoc]

/-!
# Struck while the lock is free
-/

/-- A handler that changes the state under a free lock gets to its end, and what it struck goes
on. -/
theorem reaches_resumed {lock : L} {e : ε} {effect : σ -> σ} {s : σ}
    {traps : List (Trap L σ ε)} {frames : List (Frame L σ)}
    (hcode : exceptions.handler e = Code.locked lock (Code.modify effect))
    (hfree : Not (lock ∈ taken ⟨s, traps, frames⟩)) (hresumes : exceptions.resumes e = true) :
    TrapReaches processor exceptions accepts
      ⟨s, ⟨e, exceptions.handler e, []⟩ :: traps, frames⟩ ⟨effect s, traps, frames⟩ := by
  let rest : σ -> Code L σ Unit := fun s => .write (effect s) (.release lock (.done ()))
  have hacquire : TrapStep processor exceptions accepts
      ⟨s, ⟨e, .acquire lock (.read rest), []⟩ :: traps, frames⟩
      ⟨s, ⟨e, .read rest, [lock]⟩ :: traps, frames⟩ := .acquire List.not_mem_nil hfree
  have hread : TrapStep processor exceptions accepts
      ⟨s, ⟨e, .read rest, [lock]⟩ :: traps, frames⟩
      ⟨s, ⟨e, rest s, [lock]⟩ :: traps, frames⟩ := .read
  have hwrite : TrapStep processor exceptions accepts
      ⟨s, ⟨e, rest s, [lock]⟩ :: traps, frames⟩
      ⟨effect s, ⟨e, .release lock (.done ()), [lock]⟩ :: traps, frames⟩ := .write
  have hrelease : TrapStep processor exceptions accepts
      ⟨effect s, ⟨e, .release lock (.done ()), [lock]⟩ :: traps, frames⟩
      ⟨effect s, ⟨e, .done (), [lock].erase lock⟩ :: traps, frames⟩ := .release
  rw [List.erase_cons_head] at hrelease
  rw [hcode]
  exact .head hacquire (.head hread (.head hwrite (.head hrelease (.single (.resumes hresumes)))))

end Traps

/-!
# Exceptions and lockstep
-/

/-- As long as the states are related to another state, the code does nothing that this relation
would tell. -/
def Quiet (R : σ -> σ -> Prop) (s' : σ) : Code L σ Unit -> Prop
  | .done _ => True
  | .panic _ => True
  | .cut => True
  | .acquire _ rest => Quiet R s' rest
  | .release _ rest => Quiet R s' rest
  | .read rest => forall s, R s s' -> Quiet R s' (rest s)
  | .write s rest => R s s' ∧ Quiet R s' rest

/-- Between interrupts the states are related by one relation, and while an interrupt is handled
by another that implies it; the handlers go on in lockstep, and no panic is accepted. -/
structure Lockstep (processor : Processor L σ ι) (exceptions : Exceptions L σ ε)
    (accepts : Event ι -> σ -> Prop) (R : σ -> σ -> Prop) (during : ι -> σ -> σ -> Prop) :
    Prop where
  weaken : forall i s s', during i s s' -> R s s'
  enter : forall i s s', R s s' -> accepts (.interrupt i) s ->
    accepts (.interrupt i) s' ∧ during i s s'
  handler : forall i, Code.Alike (during i) Eq (processor.handler i) (processor.handler i)
  noPanic : forall p s, Not (accepts (.panic p) s)
  quiet : forall e s', Quiet R s' (exceptions.handler e)
  quietDuring : forall e i s', Quiet (during i) s' (exceptions.handler e)

structure FramesAlike (Q : σ -> σ -> Prop) (frame frame' : Frame L σ) : Prop where
  code : Code.Alike Q Eq frame.code frame'.code
  held : frame.held = frame'.held

/-- A system struck by exceptions and one without them. -/
structure Matches (R : σ -> σ -> Prop) (during : ι -> σ -> σ -> Prop) (Q : σ -> σ -> Prop)
    (system : Trapped L σ ε) (plain : System L σ) : Prop where
  relation : Q = R ∨ exists i, Q = during i
  data : Q system.data plain.data
  frames : List.Forall₂ (FramesAlike Q) system.frames plain.frames
  traps : forall trap, trap ∈ system.traps -> Quiet Q plain.data trap.code

section Lockstep

variable {exceptions : Exceptions L σ ε}
variable {accepts : Event ι -> σ -> Prop} {R : σ -> σ -> Prop} {during : ι -> σ -> σ -> Prop}
variable {Q : σ -> σ -> Prop}

theorem heldBy_alike {frames frames' : List (Frame L σ)}
    (h : List.Forall₂ (FramesAlike Q) frames frames') : heldBy frames = heldBy frames' := by
  induction h with
  | nil => rfl
  | cons hframe _ ih =>
      unfold heldBy at ih ⊢
      rw [List.flatMap_cons, List.flatMap_cons, hframe.held, ih]

theorem related_of_matches {processor : Processor L σ ι}
    (hlockstep : Lockstep processor exceptions accepts R during)
    {system : Trapped L σ ε} {plain : System L σ} (h : Matches R during Q system plain) :
    R system.data plain.data := by
  rcases h.relation with rfl | ⟨i, rfl⟩
  · exact h.data
  · exact hlockstep.weaken i _ _ h.data

theorem quiet_of_matches {processor : Processor L σ ι}
    (hlockstep : Lockstep processor exceptions accepts R during)
    (hrelation : Q = R ∨ exists i, Q = during i) (e : ε) (s' : σ) :
    Quiet Q s' (exceptions.handler e) := by
  rcases hrelation with rfl | ⟨i, rfl⟩
  · exact hlockstep.quiet e s'
  · exact hlockstep.quietDuring e i s'

theorem frames_cons {code : Code L σ Unit} {held : List L} {below frames' : List (Frame L σ)}
    (h : List.Forall₂ (FramesAlike Q) (⟨code, held⟩ :: below) frames') :
    exists code' below', frames' = ⟨code', held⟩ :: below' ∧ Code.Alike Q Eq code code' ∧
      List.Forall₂ (FramesAlike Q) below below' := by
  cases h with
  | cons hframe hrest =>
      rename_i frame' below'
      rcases frame' with ⟨code', held'⟩
      rcases hframe with ⟨hcode, hheld⟩
      cases hheld
      exact ⟨code', below', rfl, hcode, hrest⟩

theorem step_matches [DecidableEq L] {processor : Processor L σ ι}
    (hlockstep : Lockstep processor exceptions accepts R during) {s s₁ s' : σ}
    {frames frames₁ frames' : List (Frame L σ)} (hrelation : Q = R ∨ exists i, Q = during i)
    (hdata : Q s s') (hframes : List.Forall₂ (FramesAlike Q) frames frames')
    (hstep : processor.Step accepts ⟨s, frames⟩ ⟨s₁, frames₁⟩) :
    exists Q' s₁' frames₁', processor.Step accepts ⟨s', frames'⟩ ⟨s₁', frames₁'⟩ ∧
      (Q' = R ∨ exists i, Q' = during i) ∧ Q' s₁ s₁' ∧
      List.Forall₂ (FramesAlike Q') frames₁ frames₁' := by
  cases hstep with
  | acquire hheld hbelow =>
      rcases frames_cons hframes with ⟨code', below', rfl, hcode, hrest⟩
      cases hcode with
      | acquire lock hcode =>
          rw [heldBy_alike hrest] at hbelow
          exact ⟨Q, _, _, .acquire hheld hbelow, hrelation, hdata, .cons ⟨hcode, rfl⟩ hrest⟩
  | release =>
      rcases frames_cons hframes with ⟨code', below', rfl, hcode, hrest⟩
      cases hcode with
      | release lock hcode =>
          exact ⟨Q, _, _, .release, hrelation, hdata, .cons ⟨hcode, rfl⟩ hrest⟩
  | read =>
      rcases frames_cons hframes with ⟨code', below', rfl, hcode, hrest⟩
      cases hcode with
      | read hcode =>
          exact ⟨Q, _, _, .read, hrelation, hdata, .cons ⟨hcode _ _ hdata, rfl⟩ hrest⟩
  | write =>
      rcases frames_cons hframes with ⟨code', below', rfl, hcode, hrest⟩
      cases hcode with
      | write hstate hcode =>
          exact ⟨Q, _, _, .write, hrelation, hstate, .cons ⟨hcode, rfl⟩ hrest⟩
  | panics haccepts => exact absurd haccepts (hlockstep.noPanic _ _)
  | interrupted haccepts =>
      rename_i i held
      rcases frames_cons hframes with ⟨code', below', rfl, hcode, hrest⟩
      cases hrest
      cases hcode with
      | done _ =>
          have hrelated : R s s' := by
            rcases hrelation with rfl | ⟨j, rfl⟩
            · exact hdata
            · exact hlockstep.weaken j _ _ hdata
          rcases hlockstep.enter i _ _ hrelated haccepts with ⟨haccepts', hduring⟩
          exact ⟨during i, _, _, .interrupted haccepts', Or.inr ⟨i, rfl⟩, hduring,
            .cons ⟨hlockstep.handler i, rfl⟩ (.cons ⟨.done rfl, rfl⟩ .nil)⟩
  | returns =>
      rcases frames_cons hframes with ⟨code', below', rfl, hcode, hrest⟩
      rcases frames_cons hrest with ⟨code₁, below₁, rfl, hcode₁, hrest₁⟩
      cases hcode with
      | done _ =>
          cases hcode₁ with
          | done _ =>
              exact ⟨Q, _, _, .returns, hrelation, hdata, .cons ⟨.done rfl, rfl⟩ hrest₁⟩

/-- Exceptions and the steps of their handlers go unnoticed. -/
theorem trapStep_matches [DecidableEq L] {processor : Processor L σ ι}
    (hlockstep : Lockstep processor exceptions accepts R during)
    {system system' : Trapped L σ ε} {plain : System L σ} (h : Matches R during Q system plain)
    (hstep : TrapStep processor exceptions accepts system system') :
    exists Q' plain', processor.Reaches accepts plain plain' ∧
      Matches R during Q' system' plain' := by
  rcases h with ⟨hrelation, hdata, hframes, htraps⟩
  cases hstep with
  | runs hrun =>
      rcases step_matches hlockstep hrelation hdata hframes hrun with
        ⟨Q', s₁', frames₁', hplain, hrelation', hdata', hframes'⟩
      exact ⟨Q', ⟨s₁', frames₁'⟩, .single hplain, hrelation', hdata', hframes',
        fun _ hmem => nomatch hmem⟩
  | strikes e =>
      refine ⟨Q, plain, .refl, hrelation, hdata, hframes, ?_⟩
      intro trap hmem
      rcases List.mem_cons.mp hmem with rfl | hmem
      · exact quiet_of_matches hlockstep hrelation e plain.data
      · exact htraps trap hmem
  | acquire hheld hbelow =>
      refine ⟨Q, plain, .refl, hrelation, hdata, hframes, ?_⟩
      rw [List.forall_mem_cons] at htraps ⊢
      exact htraps
  | release =>
      refine ⟨Q, plain, .refl, hrelation, hdata, hframes, ?_⟩
      rw [List.forall_mem_cons] at htraps ⊢
      exact htraps
  | read =>
      refine ⟨Q, plain, .refl, hrelation, hdata, hframes, ?_⟩
      rw [List.forall_mem_cons] at htraps ⊢
      exact ⟨htraps.1 _ hdata, htraps.2⟩
  | write =>
      rw [List.forall_mem_cons] at htraps
      refine ⟨Q, plain, .refl, hrelation, htraps.1.1, hframes, ?_⟩
      rw [List.forall_mem_cons]
      exact ⟨htraps.1.2, htraps.2⟩
  | resumes hresumes =>
      exact ⟨Q, plain, .refl, hrelation, hdata, hframes,
        fun trap hmem => htraps trap (List.mem_cons_of_mem _ hmem)⟩

theorem trapReaches_matches [DecidableEq L] {processor : Processor L σ ι}
    (hlockstep : Lockstep processor exceptions accepts R during)
    {system system' : Trapped L σ ε} {plain : System L σ} (h : Matches R during Q system plain)
    (hreaches : TrapReaches processor exceptions accepts system system') :
    exists Q' plain', processor.Reaches accepts plain plain' ∧
      Matches R during Q' system' plain' := by
  induction hreaches with
  | refl => exact ⟨Q, plain, .refl, h⟩
  | tail _ hstep ih =>
      rcases ih with ⟨Q₁, plain₁, hplain, hmatches⟩
      rcases trapStep_matches hlockstep hmatches hstep with ⟨Q₂, plain₂, hrest, hmatches'⟩
      exact ⟨Q₂, plain₂, hplain.trans hrest, hmatches'⟩

theorem quiet_locked {lock : L} {effect : σ -> σ} {s' : σ}
    (h : forall s, R s s' -> R (effect s) s') :
    Quiet R s' (Code.locked lock (Code.modify effect) : Code L σ Unit) :=
  fun s hs => ⟨h s hs, trivial⟩

end Lockstep

end Processor

end Foundation
