import NeurOS.Foundation.Service
import NeurOS.Kernel.Startup

/-!
# The kernel as its consoles

Whatever the interrupts and their order, a booted kernel is the two consoles side by
side: its idle states are the states of the reference, it transmits the greeting and
then the answers of the reference, and a handler panics where the reference does.
-/

namespace NeurOS

open Foundation

namespace Kernel

variable {env : Environment} {startup : Startup env} {held : List Lock} {k : Kernel}

/-- The kernel holds what the reference holds behind the interrupts, and has transmitted the
greeting and the answers of the reference. -/
def Simulates (startup : Startup env) (is : List Interrupt) (k : Kernel) : Prop :=
  exists desk answers,
    (Desk.machine env.profile startup.initrd).run startup.desk is = .ok (desk, answers) ∧
      Holds startup.initrd desk k ∧ k.transmitted = startup.greeting ++ answers.flatten

/-- The handlers run without a panic, from one idle state to the next, with nothing asked of the
interrupts. -/
abbrev ServedBy (env : Environment) (is : List Interrupt) (held : List Lock) (k : Kernel) : Prop :=
  Processor.Served (processor env) (fun _ _ => True) (boot env) fresh is held k

theorem simulates_nothing (startup : Startup env) : Simulates startup [] startup.booted :=
  ⟨startup.desk, [], rfl, startup.booted_holds, (List.append_nil _).symm⟩

theorem simulates_next {is : List Interrupt} {i : Interrupt} {k' : Kernel}
    (h : Simulates startup is k)
    (hrun : (handler env i).run [] [] k = .done () held k') :
    held = [] ∧ Simulates startup (is ++ [i]) k' := by
  rcases h with ⟨desk, answers, hdesk, hholds, htransmitted⟩
  have hfollows := follows_handler env hholds i
  rw [hrun] at hfollows
  rcases hfollows with ⟨⟨after, bytes⟩, hstep, hheld, hholds', htransmitted'⟩
  refine ⟨hheld, after, answers ++ [bytes], ?_, hholds', ?_⟩
  · exact Machine.run_append_eq_ok_iff.mpr
      ⟨desk, answers, [bytes], hdesk, Machine.run_single_eq_ok_iff.mpr ⟨bytes, hstep, rfl⟩, rfl⟩
  · rw [htransmitted', htransmitted, List.flatten_append, List.flatten_singleton,
      List.append_assoc]

theorem simulates_of_served (startup : Startup env) {is : List Interrupt}
    (h : ServedBy env is held k) :
    held = [] ∧ Simulates startup is k := by
  rcases h with ⟨first, start, hboot, hserves⟩
  rw [run_boot startup] at hboot
  cases hboot
  induction hserves with
  | nothing => exact ⟨rfl, simulates_nothing startup⟩
  | next _ _ hrun ih =>
      rcases ih with ⟨rfl, hsimulates⟩
      rcases simulates_next hsimulates hrun with ⟨rfl, hnext⟩
      exact ⟨rfl, hnext⟩

/-- The induction is on the interrupts, from the last one: the reference gets there by a run
of the ones ahead of it. -/
theorem served_of_run (startup : Startup env) {is : List Interrupt} {desk : Desk}
    {answers : List (List UInt8)}
    (h : (Desk.machine env.profile startup.initrd).run startup.desk is = .ok (desk, answers)) :
    exists k, ServedBy env is [] k ∧ Holds startup.initrd desk k ∧
      k.transmitted = startup.greeting ++ answers.flatten := by
  induction is using List.reverseRecOn generalizing desk answers with
  | nil =>
      cases h
      exact ⟨startup.booted, ⟨[], startup.booted, run_boot startup, .nothing⟩,
        startup.booted_holds, (List.append_nil _).symm⟩
  | append_singleton is i ih =>
      rcases Machine.run_append_eq_ok_iff.mp h with ⟨middle, front, back, hfront, hback, rfl⟩
      rcases Machine.run_single_eq_ok_iff.mp hback with ⟨bytes, hstep, rfl⟩
      rcases ih hfront with ⟨k, hserved, hholds, htransmitted⟩
      rcases Ending.done_of_follows (follows_handler env hholds i) hstep with
        ⟨_, _, k', hrun, rfl, hholds', htransmitted'⟩
      refine ⟨k', Processor.served_next hserved trivial hrun, hholds', ?_⟩
      rw [htransmitted', htransmitted, List.flatten_append, List.flatten_singleton,
        List.append_assoc]

/-!
# Every run
-/

/-- In every run, with the interrupts in any order, an idle kernel has no lock taken and is where
the reference is behind some interrupts; and every run of the reference is one of the
kernel. -/
theorem idle_kernel_simulates (startup : Startup env) :
    (forall k held, (processor env).Reaches (fun _ _ => True) (started env)
      ⟨k, [⟨.done (), held⟩]⟩ -> held = [] ∧ exists is, Simulates startup is k) ∧
    forall is desk answers,
      (Desk.machine env.profile startup.initrd).run startup.desk is = .ok (desk, answers) ->
        exists k, (processor env).Reaches (fun _ _ => True) (started env) ⟨k, [⟨.done (), []⟩]⟩ ∧
          Holds startup.initrd desk k ∧ k.transmitted = startup.greeting ++ answers.flatten := by
  constructor
  · intro k held h
    rcases Processor.reaches_idle_iff.mp h with ⟨is, hserved⟩
    rcases simulates_of_served startup hserved with ⟨hheld, hsimulates⟩
    exact ⟨hheld, is, hsimulates⟩
  · intro is desk answers h
    rcases served_of_run startup h with ⟨k, hserved, hholds, htransmitted⟩
    exact ⟨k, Processor.reaches_of_served hserved, hholds, htransmitted⟩

/-- A handler panics above idle code in some run exactly where the reference has a run to a state
in which the step on the interrupt panics so. -/
theorem handler_panics_iff (startup : Startup env) (p : Panic) :
    (exists k taken below, (processor env).Reaches (fun _ _ => True) (started env)
      ⟨k, [⟨.panic p, taken⟩, ⟨.done (), below⟩]⟩) <->
    exists is i desk answers,
      (Desk.machine env.profile startup.initrd).run startup.desk is = .ok (desk, answers) ∧
        (Desk.machine env.profile startup.initrd).step desk i = .error p := by
  constructor
  · intro hend
    rcases hend with ⟨k, taken, below, h⟩
    rcases Processor.reaches_panic_iff.mp h with ⟨is, i, k', hserved, _, hrun⟩
    rcases simulates_of_served startup hserved with
      ⟨rfl, desk, answers, hdesk, hholds, _⟩
    have hfollows := follows_handler env hholds i
    have hpanics : (handler env i).run [] [] k' = .panicked p taken k := hrun
    rw [hpanics] at hfollows
    exact ⟨is, i, desk, answers, hdesk, hfollows⟩
  · intro hend
    rcases hend with ⟨is, i, desk, answers, hdesk, hstep⟩
    rcases served_of_run startup hdesk with ⟨k, hserved, hholds, _⟩
    rcases Ending.panicked_of_follows (follows_handler env hholds i) hstep with
      ⟨taken, k', hrun⟩
    exact ⟨k', taken, [], Processor.reaches_panic_iff.mpr ⟨is, i, k, hserved, trivial, hrun⟩⟩

end Kernel

end NeurOS
