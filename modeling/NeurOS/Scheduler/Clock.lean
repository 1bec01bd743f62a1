import NeurOS.Scheduler.Running

/-!
# Turns by the clock

The countdown of the scheduler tells the ticks apart, also while a single process is
queued.  So the number of ticks since boot says how many slices have ended, and with two
processes queued each end of a slice is a context switch.
-/

namespace NeurOS

open Foundation

namespace Scheduler

variable {quantum ticks : Nat} {s s' : Scheduler}

/-- The countdown is where a number of ticks since boot leaves it. -/
structure Clocked (quantum ticks : Nat) (s : Scheduler) : Prop where
  reload : s.quantum = quantum
  remaining : s.remaining = quantum - ticks % (quantum + 1)
  nonempty : s.queue ≠ []

theorem initialized_clocked (quantum : Nat) : (initialized quantum).Clocked quantum 0 := by
  refine ⟨rfl, ?_, List.cons_ne_nil _ _⟩
  rw [Nat.zero_mod]
  rfl

theorem slice_ends (h : quantum - ticks % (quantum + 1) = 0) :
    (ticks + 1) % (quantum + 1) = 0 ∧
      (ticks + 1) / (quantum + 1) = ticks / (quantum + 1) + 1 := by
  have hlt := Nat.mod_lt ticks (Nat.succ_pos quantum)
  have hlast : ticks % (quantum + 1) = quantum := by lia
  have hdivides : quantum + 1 ∣ ticks + 1 := by
    apply Nat.dvd_of_mod_eq_zero
    rw [Nat.add_mod, hlast, Nat.add_mod_mod, Nat.mod_self]
  refine ⟨Nat.mod_eq_zero_of_dvd hdivides, ?_⟩
  rw [Nat.succ_div, if_pos hdivides]

theorem slice_goes_on (h : quantum - ticks % (quantum + 1) ≠ 0) :
    (ticks + 1) % (quantum + 1) = ticks % (quantum + 1) + 1 ∧
      (ticks + 1) / (quantum + 1) = ticks / (quantum + 1) := by
  have hlt := Nat.mod_lt ticks (Nat.succ_pos quantum)
  have hwithin : ticks % (quantum + 1) + 1 < quantum + 1 := by lia
  have hsum : ticks + 1 =
      (quantum + 1) * (ticks / (quantum + 1)) + (ticks % (quantum + 1) + 1) := by
    rw [<- Nat.add_assoc, Nat.div_add_mod]
  constructor
  · rw [hsum, Nat.mul_add_mod, Nat.mod_eq_of_lt hwithin]
  · rw [hsum, Nat.mul_add_div (Nat.succ_pos quantum), Nat.div_eq_of_lt hwithin, Nat.add_zero]

theorem step_clocked {op : Operation} {reply : Reply} (h : s.Clocked quantum ticks)
    (hstep : machine.step s op = .ok (s', reply)) :
    s'.Clocked quantum (ticks + [op].count .tick) := by
  rcases step_cases h.nonempty hstep with ⟨rfl, _, hswitches, rfl⟩ |
    ⟨current, second, rest, rfl, _, hswitches, hqueue, rfl⟩ | ⟨parent, rest, rfl, _, hqueue, rfl⟩
  · refine ⟨h.reload, ?_, h.nonempty⟩
    change (if s.remaining = 0 then s.quantum else s.remaining - 1) = _
    by_cases hzero : s.remaining = 0
    · rw [if_pos hzero, h.reload]
      rw [h.remaining] at hzero
      rw [List.count_singleton_self, (slice_ends hzero).1]
      rfl
    · rw [if_neg hzero]
      rw [h.remaining] at hzero ⊢
      rw [List.count_singleton_self, (slice_goes_on hzero).1]
      lia
  · have hzero : s.remaining = 0 := by
      unfold switches at hswitches
      simp only [Bool.and_eq_true, beq_iff_eq] at hswitches
      exact hswitches.1
    rw [h.remaining] at hzero
    refine ⟨h.reload, ?_, List.cons_ne_nil _ _⟩
    change s.quantum = _
    rw [List.count_singleton_self, (slice_ends hzero).1, h.reload]
    rfl
  · refine ⟨h.reload, h.remaining, ?_⟩
    exact List.append_ne_nil_of_left_ne_nil h.nonempty _

theorem step_switches {op : Operation} {reply : Reply} (h : s.Clocked quantum ticks)
    (hcrowded : 2 <= s.queue.length) (hstep : machine.step s op = .ok (s', reply)) :
    (broughtToFront [reply]).length + ticks / (quantum + 1) =
      (ticks + [op].count .tick) / (quantum + 1) ∧ 2 <= s'.queue.length := by
  rcases step_cases h.nonempty hstep with ⟨rfl, rfl, hswitches, rfl⟩ |
    ⟨current, second, rest, rfl, rfl, hswitches, hqueue, rfl⟩ |
    ⟨parent, rest, rfl, rfl, hqueue, rfl⟩
  · have hcounting : quantum - ticks % (quantum + 1) ≠ 0 := by
      rw [<- h.remaining]
      intro hzero
      simp [switches, hzero, hcrowded] at hswitches
    rw [List.count_singleton_self, (slice_goes_on hcounting).2]
    exact ⟨Nat.zero_add _, hcrowded⟩
  · have hzero : quantum - ticks % (quantum + 1) = 0 := by
      rw [<- h.remaining]
      unfold switches at hswitches
      simp only [Bool.and_eq_true, beq_iff_eq] at hswitches
      exact hswitches.1
    rw [List.count_singleton_self, (slice_ends hzero).2]
    exact ⟨Nat.add_comm _ _, by simp⟩
  · refine ⟨Nat.zero_add _, ?_⟩
    change 2 <= (s.queue ++ [parent.setId (s.queue.length + 1)]).length
    rw [List.length_append]
    exact Nat.le_add_right_of_le hcrowded

/-- The induction is on the calls, with the number of ticks ahead of them left open. -/
theorem run_switches {ops : List Operation} {replies : List Reply}
    (h : s.Clocked quantum ticks) (hcrowded : 2 <= s.queue.length)
    (hrun : s.run ops = .ok (s', replies)) :
    (broughtToFront replies).length + ticks / (quantum + 1) =
      (ticks + ops.count .tick) / (quantum + 1) := by
  induction ops generalizing s ticks replies with
  | nil =>
      cases hrun
      exact Nat.zero_add _
  | cons op rest ih =>
      rcases Machine.run_cons_eq_ok_iff.mp hrun with ⟨middle, reply, tail, hstep, htail, rfl⟩
      rcases step_switches h hcrowded hstep with ⟨hfirst, hmiddle⟩
      have hrest := ih (step_clocked h hstep) hmiddle htail
      have hticks : (op :: rest).count .tick = [op].count .tick + rest.count .tick := by
        rw [<- List.count_append, List.singleton_append]
      rw [hticks, broughtToFront_cons, List.length_append, <- Nat.add_assoc, <- hrest]
      lia

theorem run_clocked {ops : List Operation} {replies : List Reply} (h : s.Clocked quantum ticks)
    (hrun : s.run ops = .ok (s', replies)) :
    s'.Clocked quantum (ticks + ops.count .tick) := by
  induction ops generalizing s ticks replies with
  | nil =>
      cases hrun
      exact h
  | cons op rest ih =>
      rcases Machine.run_cons_eq_ok_iff.mp hrun with ⟨middle, reply, tail, hstep, htail, rfl⟩
      have hticks : (op :: rest).count .tick = [op].count .tick + rest.count .tick := by
        rw [<- List.count_append, List.singleton_append]
      rw [hticks, <- Nat.add_assoc]
      exact ih (step_clocked h hstep) htail

theorem front_iff_slices {ops : List Operation} {replies : List Reply} {p x : Nat}
    (h : s.Clocked quantum ticks) (hs : s.WellFormed) (hp : 1 <= p) (hx : s.ids[p]? = some x)
    (hrun : s.run ops = .ok (s', replies))
    (hle : (ticks + ops.count .tick) / (quantum + 1) <= ticks / (quantum + 1) + p) :
    s'.frontId = some x <->
      (ticks + ops.count .tick) / (quantum + 1) = ticks / (quantum + 1) + p := by
  have hlt : p < s.ids.length := (List.getElem?_eq_some_iff.mp hx).1
  have hcrowded : 2 <= s.queue.length := by
    unfold ids at hlt
    rw [List.length_map] at hlt
    lia
  have hswitches := run_switches h hcrowded hrun
  rw [run_front_iff_position hs hx hrun (by lia)]
  constructor
  · intro heq
    lia
  · intro heq
    lia

end Scheduler

end NeurOS
