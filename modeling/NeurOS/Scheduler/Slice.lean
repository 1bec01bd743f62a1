import NeurOS.Scheduler.Ring

/-!
# The length of a time slice

The countdown starts at the quantum; the tick that finds it at zero switches and
reloads it.  The period of the context switches is therefore one more than the
quantum.
-/

namespace NeurOS

open Foundation

namespace Scheduler

def holding (quantum : Nat) (processes : List Process) : Scheduler :=
  processes.foldl add (new quantum).1

theorem foldl_add (self : Scheduler) (processes : List Process) :
    processes.foldl add self = { self with queue := self.queue ++ processes } := by
  induction processes generalizing self with
  | nil => simp
  | cons process rest ih =>
      rw [List.foldl_cons, ih]
      simp [add]

theorem holding_eq (quantum : Nat) (processes : List Process) :
    holding quantum processes =
      { queue := processes, quantum := quantum, remaining := quantum } :=
  foldl_add _ processes

def tickReplies (replies : List Reply) : List Reply :=
  replies.filter fun reply =>
    match reply with
    | .forked _ => false
    | _ => true

/-- The context switches are the ticks whose number is a multiple of the period, the first
tick having the number one. -/
def SwitchesEvery (period : Nat) (replies : List Reply) : Prop :=
  forall i reply, (tickReplies replies)[i]? = some reply ->
    ((exists front, reply = .switched front) <-> period ∣ i + 1)

/-!
# The countdown
-/

structure Counting (quantum : Nat) (s : Scheduler) : Prop where
  reload : s.quantum = quantum
  remaining_le : s.remaining <= quantum
  crowded : 2 <= s.queue.length

theorem Counting.nonempty {quantum : Nat} {s : Scheduler} (h : s.Counting quantum) :
    s.queue ≠ [] := by
  intro hnil
  have hlen := h.crowded
  rw [hnil] at hlen
  cases hlen

theorem holding_counting (quantum : Nat) {processes : List Process}
    (h : 2 <= processes.length) : (holding quantum processes).Counting quantum := by
  rw [holding_eq]
  exact ⟨rfl, Nat.le_refl quantum, h⟩

theorem step_counting (quantum : Nat) : machine.Preserves (Counting quantum) := by
  intro s op s' reply hs h
  rcases step_cases hs.nonempty h with hidle | hswitch | hfork
  · rcases hidle with ⟨_, _, _, hs'⟩
    rw [hs']
    refine ⟨hs.reload, ?_, hs.crowded⟩
    have hreload := hs.reload
    have hle := hs.remaining_le
    show (if s.remaining = 0 then s.quantum else s.remaining - 1) <= quantum
    split <;> lia
  · rcases hswitch with ⟨current, second, rest, _, _, _, _, hs'⟩
    rw [hs']
    exact ⟨hs.reload, Nat.le_of_eq hs.reload, by simp⟩
  · rcases hfork with ⟨parent, rest, _, _, _, hs'⟩
    rw [hs']
    refine ⟨hs.reload, hs.remaining_le, ?_⟩
    have hlen := hs.crowded
    simp only [List.length_append]
    lia

theorem step_counting_total (quantum : Nat) : machine.Total (Counting quantum) := by
  intro s op hs
  exact step_total hs.nonempty op

theorem tick_counting {quantum : Nat} {s s' : Scheduler} {reply : Reply}
    (hs : s.Counting quantum) (h : machine.step s .tick = .ok (s', reply)) :
    (s.remaining = 0 ∧ s'.remaining = quantum ∧ exists front, reply = .switched front) ∨
    (0 < s.remaining ∧ s'.remaining = s.remaining - 1 ∧ reply = .idle) := by
  have hcrowded := hs.crowded
  rcases step_cases hs.nonempty h with hidle | hswitch | hfork
  · rcases hidle with ⟨_, hreply, hswitches, hs'⟩
    right
    have hpos : 0 < s.remaining := by
      apply Nat.pos_of_ne_zero
      intro hzero
      simp [switches, hzero, hcrowded] at hswitches
    refine ⟨hpos, ?_, hreply⟩
    rw [hs']
    exact if_neg (by lia)
  · rcases hswitch with ⟨current, second, rest, _, hreply, hswitches, _, hs'⟩
    left
    have hzero : s.remaining = 0 := by
      unfold switches at hswitches
      simp only [Bool.and_eq_true, beq_iff_eq] at hswitches
      exact hswitches.1
    refine ⟨hzero, ?_, second.getId, hreply⟩
    rw [hs']
    exact hs.reload
  · rcases hfork with ⟨_, _, hop, _⟩
    cases hop

theorem fork_remaining {s s' : Scheduler} {reply : Reply} (hne : s.queue ≠ [])
    (h : machine.step s .fork = .ok (s', reply)) :
    s'.remaining = s.remaining ∧ exists pid, reply = .forked pid := by
  rcases step_cases hne h with hidle | hswitch | hfork
  · rcases hidle with ⟨hop, _⟩
    cases hop
  · rcases hswitch with ⟨_, _, _, hop, _⟩
    cases hop
  · rcases hfork with ⟨_, _, _, hreply, _, hs'⟩
    rw [hs']
    exact ⟨rfl, _, hreply⟩

/-!
# Whole runs
-/

theorem run_exists_counting {quantum : Nat} {s : Scheduler} (hs : s.Counting quantum)
    (ops : List Operation) : exists s' replies, s.run ops = .ok (s', replies) :=
  Machine.run_total (step_counting quantum) (step_counting_total quantum) hs ops

theorem run_tickReplies_length {quantum : Nat} {s s' : Scheduler} {ops : List Operation}
    {replies : List Reply} (hs : s.Counting quantum)
    (h : s.run ops = .ok (s', replies)) :
    (tickReplies replies).length = ops.count .tick := by
  induction ops generalizing s replies with
  | nil =>
      cases h
      rfl
  | cons op rest ih =>
      rcases Machine.run_cons_eq_ok_iff.mp h with ⟨mid, reply, tail, hstep, htail, hreplies⟩
      have hmid := step_counting quantum s op mid reply hs hstep
      have hlength := ih hmid htail
      rw [hreplies]
      cases op with
      | tick =>
          rcases tick_counting hs hstep with ⟨_, _, front, hreply⟩ | ⟨_, _, hreply⟩
          · rw [hreply]
            simpa [tickReplies] using hlength
          · rw [hreply]
            simpa [tickReplies] using hlength
      | fork =>
          rcases fork_remaining hs.nonempty hstep with ⟨_, pid, hreply⟩
          rw [hreply]
          simpa [tickReplies] using hlength

/-- The ticks that the countdown has already seen count as ticks of the current slice. -/
theorem run_switchesEvery {quantum : Nat} {s s' : Scheduler} {ops : List Operation}
    {replies : List Reply} (hs : s.Counting quantum)
    (h : s.run ops = .ok (s', replies)) {i : Nat} {reply : Reply}
    (hreply : (tickReplies replies)[i]? = some reply) :
    (exists front, reply = .switched front) <->
      quantum + 1 ∣ i + 1 + (quantum - s.remaining) := by
  induction ops generalizing s replies i with
  | nil =>
      cases h
      cases hreply
  | cons op rest ih =>
      rcases Machine.run_cons_eq_ok_iff.mp h with ⟨mid, first, tail, hstep, htail, hreplies⟩
      have hmid := step_counting quantum s op mid first hs hstep
      rw [hreplies] at hreply
      cases op with
      | tick =>
          rcases tick_counting hs hstep with
            ⟨hzero, hreload, front, hfirst⟩ | ⟨hpos, hdown, hfirst⟩
          · rw [hfirst] at hreply
            cases i with
            | zero =>
                have heq : Reply.switched front = reply := by
                  simpa [tickReplies] using hreply
                have hdvd : quantum + 1 ∣ 0 + 1 + (quantum - s.remaining) := by
                  rw [hzero]
                  exact ⟨1, by lia⟩
                exact iff_of_true ⟨front, heq.symm⟩ hdvd
            | succ i =>
                have hrest : (tickReplies tail)[i]? = some reply := by
                  simpa [tickReplies] using hreply
                rw [ih hmid htail hrest, hreload, hzero]
                have hsum : i + 1 + 1 + (quantum - 0) =
                    i + 1 + (quantum - quantum) + (quantum + 1) := by
                  lia
                rw [hsum, Nat.dvd_add_self_right]
          · rw [hfirst] at hreply
            have hle := hs.remaining_le
            cases i with
            | zero =>
                have heq : Reply.idle = reply := by
                  simpa [tickReplies] using hreply
                rw [← heq]
                apply iff_of_false
                · intro hexists
                  rcases hexists with ⟨front, hfront⟩
                  cases hfront
                · intro hdvd
                  have hbound := Nat.le_of_dvd (by lia) hdvd
                  lia
            | succ i =>
                have hrest : (tickReplies tail)[i]? = some reply := by
                  simpa [tickReplies] using hreply
                rw [ih hmid htail hrest, hdown]
                have hsum : i + 1 + (quantum - (s.remaining - 1)) =
                    i + 1 + 1 + (quantum - s.remaining) := by
                  lia
                rw [hsum]
      | fork =>
          rcases fork_remaining hs.nonempty hstep with ⟨hsame, pid, hfirst⟩
          rw [hfirst] at hreply
          have hrest : (tickReplies tail)[i]? = some reply := by
            simpa [tickReplies] using hreply
          rw [ih hmid htail hrest, hsame]

theorem run_front {quantum : Nat} {s s' : Scheduler} {ops : List Operation}
    {replies : List Reply} (hs : s.Counting quantum)
    (h : s.run ops = .ok (s', replies)) :
    s'.frontId = (broughtToFront replies).getLast?.or s.frontId := by
  induction ops generalizing s replies with
  | nil =>
      cases h
      rfl
  | cons op rest ih =>
      rcases Machine.run_cons_eq_ok_iff.mp h with ⟨mid, first, tail, hstep, htail, hreplies⟩
      have hmid := step_counting quantum s op mid first hs hstep
      rw [ih hmid htail, hreplies]
      rcases step_cases hs.nonempty hstep with hidle | hswitch | hfork
      · rcases hidle with ⟨_, hfirst, _, hstate⟩
        rw [hfirst, hstate]
        rfl
      · rcases hswitch with ⟨current, second, others, _, hfirst, _, _, hstate⟩
        have hfront : mid.frontId = some second.getId := by
          rw [hstate]
          rfl
        rw [hfirst, hfront]
        show _ = (second.getId :: broughtToFront tail).getLast?.or s.frontId
        cases hlast : (broughtToFront tail).getLast? with
        | none =>
            rw [List.getLast?_eq_none_iff.mp hlast]
            rfl
        | some last => simp [List.getLast?_cons, hlast]
      · rcases hfork with ⟨parent, others, _, hfirst, hqueue, hstate⟩
        have hfront : mid.frontId = s.frontId := by
          rw [hstate]
          simp [frontId, ids, hqueue]
        rw [hfirst, hfront]
        rfl

/-- The front process changes at every tick whose number is a multiple of the quantum plus
one, so the slices last a quantum only in a run that is too short to tell. -/
theorem slice_iff {quantum : Nat} (hquantum : 1 <= quantum) {processes : List Process}
    (hprocesses : 2 <= processes.length) (ops : List Operation) :
    exists s replies, (holding quantum processes).run ops = .ok (s, replies) ∧
      s.frontId =
        (broughtToFront replies).getLast?.or (holding quantum processes).frontId ∧
      SwitchesEvery (quantum + 1) replies ∧
      (SwitchesEvery quantum replies <-> ops.count .tick < quantum) := by
  have hs := holding_counting quantum hprocesses
  rcases run_exists_counting hs ops with ⟨s, replies, hrun⟩
  have hevery : SwitchesEvery (quantum + 1) replies := by
    intro i reply hreply
    have hiff := run_switchesEvery hs hrun hreply
    rw [holding_eq] at hiff
    simpa using hiff
  refine ⟨s, replies, hrun, run_front hs hrun, hevery, ?_⟩
  rw [← run_tickReplies_length hs hrun]
  constructor
  · intro hclaimed
    by_contra hlong
    -- The tick whose number is the quantum does not switch.
    have hlt : quantum - 1 < (tickReplies replies).length := by lia
    have hget := List.getElem?_eq_getElem hlt
    have hswitched := (hclaimed _ _ hget).mpr ⟨1, by lia⟩
    have hdvd := (hevery _ _ hget).mp hswitched
    have hbound := Nat.le_of_dvd (by lia) hdvd
    lia
  · intro hshort i reply hreply
    have hlt : i < (tickReplies replies).length :=
      (List.getElem?_eq_some_iff.mp hreply).1
    rw [hevery i reply hreply]
    apply iff_of_false
    · intro hdvd
      have hbound := Nat.le_of_dvd (by lia) hdvd
      lia
    · intro hdvd
      have hbound := Nat.le_of_dvd (by lia) hdvd
      lia

def pair : List Process :=
  [Process.new 1 "kernel" .running, Process.new 2 "kernel" .stopped]

theorem slice_iff_sample :
    exists s replies, (holding 100 pair).run (List.replicate 100 .tick) = .ok (s, replies) ∧
      s.frontId = (broughtToFront replies).getLast?.or (holding 100 pair).frontId ∧
      SwitchesEvery (100 + 1) replies ∧
      (SwitchesEvery 100 replies <-> (List.replicate 100 Operation.tick).count .tick < 100) :=
  slice_iff (by lia) (by decide) (List.replicate 100 .tick)

/-- With a quantum of one tick the first tick does not switch. -/
theorem first_tick_not_switched :
    exists s replies, (holding 1 pair).run [.tick] = .ok (s, replies) ∧
      Not (SwitchesEvery 1 replies) := by
  refine ⟨_, _, rfl, ?_⟩
  intro h
  rcases (h 0 .idle rfl).mpr ⟨1, rfl⟩ with ⟨front, hfront⟩
  cases hfront

end Scheduler

end NeurOS
