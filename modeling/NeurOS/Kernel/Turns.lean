import NeurOS.Kernel.Session
import NeurOS.Scheduler.Clock

/-!
# Who has the processor, by the clock

The timer interrupts alone decide when a waiting process gets the processor of a booted
kernel: neither the keys, nor the bytes on the serial port, nor the processes that
are forked meanwhile bring its turn forward or put it off.
-/

namespace NeurOS

open Foundation

namespace Kernel

variable {env : Environment} {held : List Lock} {k k' : Kernel} {is more : List Interrupt}

open LineEditor Desk

/-- The slices that have ended behind some interrupts: a slice is a tick longer than the quantum
of a hundred. -/
def slices (is : List Interrupt) : Nat :=
  is.count .timer / 101

theorem clocked_after (startup : Startup env) {console : Console}
    (h : After startup.desk.console is console) :
    console.scheduler.Clocked 100 (is.count .timer) := by
  rcases h.scheduler with ⟨replies, hrun⟩
  have hclocked := Scheduler.run_clocked (Scheduler.initialized_clocked 100) hrun
  rw [count_tick, Nat.zero_add] at hclocked
  exact hclocked

/-- A process that waits behind the front of the run queue gets the processor exactly when as many
slices have ended as its position says, whatever the interrupts are otherwise. -/
theorem turn_comes (startup : Startup env) (h : ServedBy env is [] k)
    (h' : ServedBy env (is ++ more) held k') {scheduler : Scheduler}
    (hk : k.scheduler = some scheduler) {p pid : Nat} (hp : 1 <= p)
    (hpid : (scheduler.queue.map Process.getId)[p]? = some pid)
    (hle : slices (is ++ more) <= slices is + p) :
    exists scheduler', k'.scheduler = some scheduler' ∧
      (scheduler'.frontId = some pid <-> slices (is ++ more) = slices is + p) := by
  rcases simulates_of_served startup h with ⟨_, desk, answers, hdesk, hholds, _⟩
  rcases simulates_of_served startup h' with ⟨_, desk', answers', hdesk', hholds', _⟩
  rcases Machine.run_append_eq_ok_iff.mp hdesk' with ⟨middle, front, back, hfront, hback, _⟩
  rw [hdesk] at hfront
  cases hfront
  have hafter := run_after hdesk
  rcases (run_after hback).scheduler with ⟨replies, hrun⟩
  have hscheduler : desk.console.scheduler = scheduler := by
    rw [hholds.scheduler] at hk
    exact Option.some.inj hk
  rw [hscheduler] at hrun
  have hclocked := clocked_after startup hafter
  have hwell := (scheduler_after startup hafter).1
  rw [hscheduler] at hclocked hwell
  have hturn := Scheduler.front_iff_slices hclocked hwell hp hpid hrun
  rw [count_tick, <- List.count_append] at hturn
  exact ⟨_, hholds'.scheduler, hturn hle⟩

theorem served_timers (startup : Startup env) (h : ServedBy env is [] k) (count : Nat) :
    exists k', ServedBy env (is ++ List.replicate count .timer) [] k' := by
  induction count with
  | zero => exact ⟨k, by rw [List.replicate_zero, List.append_nil]; exact h⟩
  | succ count ih =>
      rcases ih with ⟨k', hserved⟩
      rcases simulates_of_served startup hserved with ⟨_, desk, answers, _, hholds, _⟩
      have htick : exists result, desk.console.scheduler.tick = .ok result := by
        cases hswitches : desk.console.scheduler.switches with
        | false =>
            rcases Scheduler.tick_of_not_switches hswitches with ⟨logs, htick⟩
            exact ⟨_, htick⟩
        | true =>
            rcases Scheduler.tick_of_switches hswitches with ⟨_, _, _, logs, _, htick⟩
            exact ⟨_, htick⟩
      rcases htick with ⟨result, htick⟩
      have hstep : (Desk.machine env.profile startup.initrd).step desk .timer =
          .ok (ticked desk result, []) := by
        rw [step_timer, htick, Outcome.ok_bind]
      rcases Ending.done_of_follows (follows_handler env hholds .timer) hstep with
        ⟨_, _, last, hrun, rfl, _⟩
      have hdone : ((processor env).handler .timer).run [] [] k' = .done () [] last := hrun
      refine ⟨last, ?_⟩
      rw [List.replicate_succ', <- List.append_assoc]
      exact Processor.served_next hserved trivial hdone

theorem turn_comes_sample : exists k' scheduler',
    ServedBy whole (typing "fork\x0d" ++ List.replicate 101 .timer) [] k' ∧
      k'.scheduler = some scheduler' ∧ scheduler'.frontId = some 2 := by
  rcases fork_served with ⟨startup, k, hserved⟩
  rcases served_timers startup hserved 101 with ⟨k', hserved'⟩
  rcases after_of_served startup hserved with ⟨desk, hholds, hafter⟩
  rcases hafter.scheduler with ⟨replies, hrun⟩
  have hbuffer : startup.desk.console.shell.buffer = [] := new_buffer startup.shell_eq
  have hoperations : operations [] (typing "fork\x0d") = [.fork] := rfl
  rw [hbuffer, hoperations] at hrun
  have hqueue : (desk.console.scheduler.queue.map Process.getId)[1]? = some 2 := by
    have hforked : (Scheduler.initialized 100).run [.fork] =
        .ok ((Scheduler.initialized 100).add ((Process.new 1 "kernel" .running).setId 2),
          [.forked 2]) := rfl
    have hsame : (Scheduler.initialized 100).add ((Process.new 1 "kernel" .running).setId 2) =
        desk.console.scheduler := congrArg Prod.fst (Except.ok.inj (hforked.symm.trans hrun))
    rw [<- hsame]
    rfl
  have hslices : slices (typing "fork\x0d" ++ List.replicate 101 .timer) =
      slices (typing "fork\x0d") + 1 := by
    have hnone : (typing "fork\x0d").count .timer = 0 := rfl
    unfold slices
    rw [List.count_append, List.count_replicate_self, hnone]
  rcases turn_comes startup hserved hserved' hholds.scheduler (Nat.le_refl 1) hqueue
    (Nat.le_of_eq hslices) with ⟨scheduler', hscheduler, hfront⟩
  exact ⟨k', scheduler', hserved', hscheduler, hfront.mpr hslices⟩

end Kernel

end NeurOS
