import NeurOS.Foundation.Locks

/-!
# Interrupts served one after another

One processor runs a handler to its end before it takes the next interrupt.  The
idle states of a run are therefore those that serving a list of interrupts reaches
from the end of the boot code, and a handler panics in a run exactly where it panics
on such a state.
-/

namespace Foundation

namespace Processor

variable {L σ ι : Type} [DecidableEq L]

/-- The handlers of the interrupts run to their ends one after another, from idle code that holds
some locks to such code. -/
inductive Serves (processor : Processor L σ ι) (accepts : Event ι -> σ -> Prop)
    (first : List L) (start : σ) : List ι -> List L -> σ -> Prop where
  | nothing : Serves processor accepts first start [] first start
  | next {is : List ι} {i : ι} {held held' : List L} {s s' : σ}
      (h : Serves processor accepts first start is held s) (haccepts : accepts (.interrupt i) s)
      (hrun : (processor.handler i).run held [] s = .done () held' s') :
      Serves processor accepts first start (is ++ [i]) (held' ++ held) s'

/-- The boot code ends, and the interrupts are served from its end on. -/
def Served (processor : Processor L σ ι) (accepts : Event ι -> σ -> Prop) (boot : Code L σ Unit)
    (start : σ) (is : List ι) (held : List L) (s : σ) : Prop :=
  exists first s', boot.run [] [] start = .done () first s' ∧
    Serves processor accepts first s' is held s

section Service

variable {processor : Processor L σ ι} {accepts : Event ι -> σ -> Prop}
variable {boot : Code L σ Unit} {start : σ}

theorem served_next {is : List ι} {i : ι} {held held' : List L} {s s' : σ}
    (h : Served processor accepts boot start is held s) (haccepts : accepts (.interrupt i) s)
    (hrun : (processor.handler i).run held [] s = .done () held' s') :
    Served processor accepts boot start (is ++ [i]) (held' ++ held) s' := by
  rcases h with ⟨first, middle, hboot, hserves⟩
  exact ⟨first, middle, hboot, .next hserves haccepts hrun⟩

theorem served_mono {accepts' : Event ι -> σ -> Prop}
    (hmono : forall i s, accepts (.interrupt i) s -> accepts' (.interrupt i) s) {is : List ι}
    {held : List L} {s : σ} (h : Served processor accepts boot start is held s) :
    Served processor accepts' boot start is held s := by
  rcases h with ⟨first, middle, hboot, hserves⟩
  refine ⟨first, middle, hboot, ?_⟩
  induction hserves with
  | nothing => exact .nothing
  | next _ haccepts hrun ih => exact .next ih (hmono _ _ haccepts) hrun

/-- The systems of a run: the boot code on its way, the processor idle, a handler on its way, or
anything above a frame that panicked. -/
inductive Stage (processor : Processor L σ ι) (accepts : Event ι -> σ -> Prop)
    (boot : Code L σ Unit) (start : σ) : System L σ -> Prop where
  | booting {s : σ} {code : Code L σ Unit} {held : List L}
      (h : code.run [] held s = boot.run [] [] start) :
      Stage processor accepts boot start ⟨s, [⟨code, held⟩]⟩
  | idle {is : List ι} {s : σ} {held : List L}
      (h : Served processor accepts boot start is held s) :
      Stage processor accepts boot start ⟨s, [⟨.done (), held⟩]⟩
  | handling {is : List ι} {i : ι} {s s' : σ} {code : Code L σ Unit} {held below : List L}
      (h : Served processor accepts boot start is below s) (haccepts : accepts (.interrupt i) s)
      (hcode : code.run below held s' = (processor.handler i).run below [] s) :
      Stage processor accepts boot start ⟨s', [⟨code, held⟩, ⟨.done (), below⟩]⟩
  | panicked {s : σ} {p : Panic} {taken : List L} {frame : Frame L σ} {below : List (Frame L σ)}
      (h : ⟨.panic p, taken⟩ ∈ below) :
      Stage processor accepts boot start ⟨s, frame :: below⟩

/-- The cases are those of the step, for each stage that the system can be in. -/
theorem stage_step {system system' : System L σ}
    (h : Stage processor accepts boot start system)
    (hstep : processor.Step accepts system system') :
    Stage processor accepts boot start system' := by
  cases h with
  | booting h =>
      cases hstep with
      | acquire hfree hbelow =>
          rw [Code.run_acquire ⟨hfree, List.not_mem_nil⟩] at h
          exact .booting h
      | release => exact .booting h
      | read => exact .booting h
      | write => exact .booting h
      | panics haccepts => exact .panicked List.mem_cons_self
      | interrupted haccepts =>
          have hserved : Served processor accepts boot start [] _ _ := ⟨_, _, h.symm, .nothing⟩
          exact .handling hserved haccepts rfl
  | idle h =>
      cases hstep with
      | interrupted haccepts => exact .handling h haccepts rfl
  | handling h haccepts hcode =>
      cases hstep with
      | acquire hfree hbelow =>
          simp only [heldBy, List.flatMap_cons, List.flatMap_nil, List.append_nil] at hbelow
          rw [Code.run_acquire ⟨hfree, hbelow⟩] at hcode
          exact .handling h haccepts hcode
      | release => exact .handling h haccepts hcode
      | read => exact .handling h haccepts hcode
      | write => exact .handling h haccepts hcode
      | panics _ => exact .panicked List.mem_cons_self
      | returns => exact .idle (served_next h haccepts hcode.symm)
  | panicked h =>
      cases hstep with
      | acquire hfree hbelow => exact .panicked h
      | release => exact .panicked h
      | read => exact .panicked h
      | write => exact .panicked h
      | panics _ => exact .panicked (List.mem_cons_of_mem _ h)
      | interrupted _ => cases h
      | returns =>
          rcases List.mem_cons.mp h with hframe | hbelow
          · cases hframe
          · exact .panicked hbelow

theorem stage_reaches {system : System L σ}
    (h : processor.Reaches accepts ⟨start, [⟨boot, []⟩]⟩ system) :
    Stage processor accepts boot start system := by
  induction h with
  | refl => exact .booting rfl
  | tail _ hstep ih => exact stage_step ih hstep

theorem reaches_of_serves {first : List L} {is : List ι} {held : List L} {s : σ}
    (h : Serves processor accepts first start is held s) :
    processor.Reaches accepts ⟨start, [⟨.done (), first⟩]⟩ ⟨s, [⟨.done (), held⟩]⟩ := by
  induction h with
  | nothing => exact .refl
  | @next is i held held' s s' h haccepts hrun ih =>
      have hbelow : heldBy [(⟨.done (), held⟩ : Frame L σ)] = held := by simp [heldBy]
      have harrives : processor.Arrives accepts [⟨.done (), held⟩]
          ⟨s, [⟨processor.handler i, []⟩, ⟨.done (), held⟩]⟩
          ((processor.handler i).run held [] s) := arrives hbelow (processor.handler i) [] s
      rw [hrun] at harrives
      exact (ih.tail (.interrupted haccepts)).trans (harrives.tail .returns)

theorem reaches_of_served {is : List ι} {held : List L} {s : σ}
    (h : Served processor accepts boot start is held s) :
    processor.Reaches accepts ⟨start, [⟨boot, []⟩]⟩ ⟨s, [⟨.done (), held⟩]⟩ := by
  rcases h with ⟨first, s', hboot, hserves⟩
  have harrives : processor.Arrives accepts [] ⟨start, [⟨boot, []⟩]⟩ (boot.run [] [] start) :=
    arrives rfl boot [] start
  rw [hboot] at harrives
  exact harrives.trans (reaches_of_serves hserves)

/-- The idle systems of a run are those that serving interrupts one after another reaches. -/
theorem reaches_idle_iff {held : List L} {s : σ} :
    processor.Reaches accepts ⟨start, [⟨boot, []⟩]⟩ ⟨s, [⟨.done (), held⟩]⟩ <->
      exists is, Served processor accepts boot start is held s := by
  constructor
  · intro h
    cases stage_reaches h with
    | booting h => exact ⟨[], _, _, h.symm, .nothing⟩
    | idle h => exact ⟨_, h⟩
    | panicked h => cases h
  · intro hend
    rcases hend with ⟨is, h⟩
    exact reaches_of_served h

theorem alone_of_reaches {code : Code L σ Unit} {held : List L} {s : σ}
    (h : processor.Reaches accepts ⟨start, [⟨boot, []⟩]⟩ ⟨s, [⟨code, held⟩]⟩) :
    code = .done () ∨ code.run [] held s = boot.run [] [] start := by
  cases stage_reaches h with
  | booting h => exact Or.inr h
  | idle h => exact Or.inl rfl
  | panicked h => cases h

/-- A handler panics in a run where it panics on a state that serving interrupts reaches. -/
theorem reaches_panic_iff {p : Panic} {taken below : List L} {s : σ} :
    processor.Reaches accepts ⟨start, [⟨boot, []⟩]⟩
        ⟨s, [⟨.panic p, taken⟩, ⟨.done (), below⟩]⟩ <->
      exists is i s', Served processor accepts boot start is below s' ∧
        accepts (.interrupt i) s' ∧
        (processor.handler i).run below [] s' = .panicked p taken s := by
  constructor
  · intro h
    cases stage_reaches h with
    | handling h haccepts hcode => exact ⟨_, _, _, h, haccepts, hcode.symm⟩
    | panicked h => simp at h
  · intro hend
    rcases hend with ⟨is, i, s', h, haccepts, hrun⟩
    have hbelow : heldBy [(⟨.done (), below⟩ : Frame L σ)] = below := by simp [heldBy]
    have harrives : processor.Arrives accepts [⟨.done (), below⟩]
        ⟨s', [⟨processor.handler i, []⟩, ⟨.done (), below⟩]⟩
        ((processor.handler i).run below [] s') := arrives hbelow (processor.handler i) [] s'
    rw [hrun] at harrives
    exact ((reaches_of_served h).tail (.interrupted haccepts)).trans harrives

end Service

end Processor

end Foundation
