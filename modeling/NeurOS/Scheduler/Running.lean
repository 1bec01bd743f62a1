import NeurOS.Scheduler.Ring

/-!
# Who is marked as running

A context switch stops the process it sends to the back and starts the one it
brings to the front.  A fork clones its parent whole, the running mark included,
so a child counts as running from its creation although it waits at the back.
The mark of a waiting process therefore says whether it ever had its turn.
-/

namespace NeurOS

open Foundation

namespace Scheduler

/-- Exactly the front process is running. -/
def FrontRuns (s : Scheduler) : Prop :=
  forall i process, s.queue[i]? = some process ->
    (process.state = .running <-> i = 0)

/-- The processes that have had a turn: the first one, and those that a context
switch brought to the front. -/
def served (replies : List Reply) : List Nat :=
  1 :: broughtToFront replies

/-- The front process is running and has had a turn; a waiting process is
running if and only if it has had none. -/
structure Marked (s : Scheduler) (turned : List Nat) : Prop where
  front : forall process, s.queue[0]? = some process ->
    process.state = .running ∧ process.getId ∈ turned
  waiting : forall i process, s.queue[i + 1]? = some process ->
    (process.state = .running <-> process.getId ∉ turned)

theorem initialized_marked (quantum : Nat) :
    (initialized quantum).Marked (served []) := by
  constructor
  · intro process h
    cases h
    exact ⟨rfl, List.mem_cons_self⟩
  · intro i process h
    cases h

theorem marked_switch {turned : List Nat} {current second : Process}
    {rest : List Process} {quantum remaining remaining' : Nat}
    (hnodup : ((current :: second :: rest).map Process.getId).Nodup)
    (h : (Scheduler.mk (current :: second :: rest) quantum remaining).Marked turned) :
    (Scheduler.mk (second.setState .running :: (rest ++ [current.setState .stopped]))
      quantum remaining').Marked (turned ++ [second.getId]) := by
  have hcurrent : current.getId ∈ turned := (h.front current rfl).2
  constructor
  · intro process hprocess
    cases hprocess
    exact ⟨rfl, List.mem_append_right _ List.mem_cons_self⟩
  · intro i process hprocess
    have hget : (rest ++ [current.setState .stopped])[i]? = some process := hprocess
    by_cases hi : i < rest.length
    · rw [List.getElem?_append_left hi] at hget
      have hold := h.waiting (i + 1) process hget
      have hmem : process ∈ rest := List.mem_of_getElem? hget
      have hne : process.getId ≠ second.getId := by
        intro heq
        have htail : (second.getId :: rest.map Process.getId).Nodup :=
          (List.nodup_cons.mp hnodup).2
        apply (List.nodup_cons.mp htail).1
        rw [← heq]
        exact List.mem_map_of_mem hmem
      rw [hold]
      simp [hne]
    · rw [List.getElem?_append_right (by lia)] at hget
      have hlast : process = current.setState .stopped := by
        have hmem : process ∈ [current.setState .stopped] := List.mem_of_getElem? hget
        simpa using hmem
      rw [hlast]
      simp [hcurrent]

theorem marked_fork {turned : List Nat} {s : Scheduler} {parent child : Process}
    (hparent : s.queue.head? = some parent) (hstate : child.state = parent.state)
    (hfresh : child.getId ∉ turned) (h : s.Marked turned) :
    (s.add child).Marked turned := by
  have hzero : s.queue[0]? = some parent := by
    rw [← List.head?_eq_getElem?]
    exact hparent
  have hlen : 0 < s.queue.length := (List.getElem?_eq_some_iff.mp hzero).1
  constructor
  · intro process hprocess
    apply h.front
    have hget : (s.queue ++ [child])[0]? = some process := hprocess
    rw [List.getElem?_append_left hlen] at hget
    exact hget
  · intro i process hprocess
    have hget : (s.queue ++ [child])[i + 1]? = some process := hprocess
    by_cases hi : i + 1 < s.queue.length
    · rw [List.getElem?_append_left hi] at hget
      exact h.waiting i process hget
    · rw [List.getElem?_append_right (by lia)] at hget
      have hlast : process = child := by
        have hmem : process ∈ [child] := List.mem_of_getElem? hget
        simpa using hmem
      rw [hlast, hstate, (h.front parent hzero).1]
      simp [hfresh]

theorem served_subset {s s' : Scheduler} {op : Operation} {reply : Reply}
    {turned : List Nat} (hs : s.WellFormed) (hsub : turned ⊆ s.ids)
    (h : machine.step s op = .ok (s', reply)) :
    turned ++ broughtToFront [reply] ⊆ s'.ids := by
  have hids : s'.ids = reply.events.foldl RoundRobin.step s.ids :=
    step_simulates hs h
  have hkept : forall {event : RoundRobin.Event Nat} {x : Nat}, x ∈ s.ids ->
      x ∈ RoundRobin.step s.ids event := by
    intro event x hx
    exact (RoundRobin.step_perm s.ids event).mem_iff.mpr (List.mem_append_left _ hx)
  intro x hx
  rw [hids]
  rcases step_cases hs.nonempty h with hidle | hswitch | hfork
  · rcases hidle with ⟨_, hreply, _, _⟩
    rw [hreply] at hx ⊢
    exact hsub (by simpa [broughtToFront] using hx)
  · rcases hswitch with ⟨current, second, rest, _, hreply, _, hqueue, _⟩
    rw [hreply] at hx ⊢
    rcases List.mem_append.mp hx with hold | hnew
    · exact hkept (hsub hold)
    · have hsecond : second.getId ∈ s.ids := by
        unfold ids
        rw [hqueue]
        simp
      have hx' : x = second.getId := by simpa [broughtToFront] using hnew
      rw [hx']
      exact hkept hsecond
  · rcases hfork with ⟨parent, rest, _, hreply, _, _⟩
    rw [hreply] at hx ⊢
    exact hkept (hsub (by simpa [broughtToFront] using hx))

theorem step_marked {s s' : Scheduler} {op : Operation} {reply : Reply}
    {turned : List Nat} (hs : s.WellFormed) (hsub : turned ⊆ s.ids)
    (hmarked : s.Marked turned) (h : machine.step s op = .ok (s', reply)) :
    s'.Marked (turned ++ broughtToFront [reply]) := by
  rcases step_cases hs.nonempty h with hidle | hswitch | hfork
  · rcases hidle with ⟨_, hreply, _, hs'⟩
    rw [hreply, hs']
    constructor
    · intro process hprocess
      simpa [broughtToFront] using hmarked.front process hprocess
    · intro i process hprocess
      simpa [broughtToFront] using hmarked.waiting i process hprocess
  · rcases hswitch with ⟨current, second, rest, _, hreply, _, hqueue, hs'⟩
    cases s with
    | mk queue quantum remaining =>
        change queue = current :: second :: rest at hqueue
        subst hqueue
        rw [hreply, hs']
        exact marked_switch hs.nodup hmarked
  · rcases hfork with ⟨parent, rest, _, hreply, hqueue, hs'⟩
    have hparent : s.queue.head? = some parent := by
      rw [hqueue]
      rfl
    have hfresh : (parent.setId (s.queue.length + 1)).getId ∉ turned := by
      intro hmem
      exact hs.fresh (hsub hmem)
    rw [hreply, hs']
    have hadd := marked_fork hparent (Process.state_setId parent (s.queue.length + 1))
      hfresh hmarked
    simpa [broughtToFront, add] using hadd

theorem broughtToFront_cons (reply : Reply) (rest : List Reply) :
    broughtToFront (reply :: rest) =
      broughtToFront [reply] ++ broughtToFront rest := by
  cases reply <;> rfl

theorem run_marked {s s' : Scheduler} {ops : List Operation}
    {replies : List Reply} {turned : List Nat} (hs : s.WellFormed)
    (hsub : turned ⊆ s.ids) (hmarked : s.Marked turned)
    (h : s.run ops = .ok (s', replies)) :
    s'.Marked (turned ++ broughtToFront replies) := by
  induction ops generalizing s replies turned with
  | nil =>
      cases h
      simpa [broughtToFront] using hmarked
  | cons op rest ih =>
      rcases Machine.run_cons_eq_ok_iff.mp h with
        ⟨mid, reply, tail, hstep, htail, hreplies⟩
      rw [hreplies, broughtToFront_cons, ← List.append_assoc]
      exact ih (step_wellFormed s op mid reply hs hstep)
        (served_subset hs hsub hstep) (step_marked hs hsub hmarked hstep) htail

/-- The marks of every reachable state. -/
theorem reachable_marked {quantum : Nat} {ops : List Operation} {s : Scheduler}
    {replies : List Reply} (h : (initialized quantum).run ops = .ok (s, replies)) :
    s.Marked (served replies) := by
  have hsub : served [] ⊆ (initialized quantum).ids := List.Subset.refl [1]
  exact run_marked (initialized_wellFormed quantum) hsub
    (initialized_marked quantum) h

theorem frontRuns_iff_all_served {quantum : Nat} {ops : List Operation}
    {s : Scheduler} {replies : List Reply}
    (h : (initialized quantum).run ops = .ok (s, replies)) :
    s.FrontRuns <-> forall process, process ∈ s.queue ->
      process.getId ∈ served replies := by
  have hmarked : s.Marked (served replies) := reachable_marked h
  constructor
  · intro hfront process hmem
    rcases List.getElem?_of_mem hmem with ⟨i, hi⟩
    cases i with
    | zero => exact (hmarked.front process hi).2
    | succ i =>
        by_contra hnot
        have hzero : i + 1 = 0 :=
          (hfront (i + 1) process hi).mp ((hmarked.waiting i process hi).mpr hnot)
        cases hzero
  · intro hall i process hi
    cases i with
    | zero => simp [(hmarked.front process hi).1]
    | succ i =>
        have hserved : process.getId ∈ served replies :=
          hall process (List.mem_of_getElem? hi)
        rw [hmarked.waiting i process hi]
        simp [hserved]

/-!
# Forks break the mark
-/

theorem fork_not_frontRuns {s s' : Scheduler} {reply : Reply} (hs : s.WellFormed)
    (hfront : s.FrontRuns) (h : machine.step s .fork = .ok (s', reply)) :
    ¬ s'.FrontRuns := by
  rcases step_cases hs.nonempty h with hidle | hswitch | hfork
  · rcases hidle with ⟨hop, _, _, _⟩
    cases hop
  · rcases hswitch with ⟨_, _, _, hop, _, _, _, _⟩
    cases hop
  · rcases hfork with ⟨parent, rest, _, _, hqueue, hs'⟩
    have hparent : parent.state = .running := by
      apply (hfront 0 parent _).mpr rfl
      rw [hqueue]
      rfl
    have hchild : s'.queue[s.queue.length]? =
        some (parent.setId (s.queue.length + 1)) := by
      rw [hs']
      simp
    intro hafter
    have hzero : s.queue.length = 0 :=
      (hafter s.queue.length _ hchild).mp hparent
    rw [hqueue] at hzero
    cases hzero

theorem run_without_fork_frontRuns {quantum : Nat} {ops : List Operation}
    {s : Scheduler} {replies : List Reply} (hops : Operation.fork ∉ ops)
    (h : (initialized quantum).run ops = .ok (s, replies)) : s.FrontRuns := by
  have hlen : s.queue.length = 1 := by
    rw [run_queue_length (initialized_wellFormed quantum) h,
      List.count_eq_zero_of_not_mem hops]
    rfl
  have hmarked : s.Marked (served replies) := reachable_marked h
  intro i process hi
  have hlt : i < s.queue.length := (List.getElem?_eq_some_iff.mp hi).1
  have hzero : i = 0 := by lia
  subst hzero
  simp [(hmarked.front process hi).1]

/-- Exactly the front process runs in every state of a run if and only if the run
contains no fork. -/
theorem frontRuns_throughout_iff (quantum : Nat) (ops : List Operation) :
    (forall before, before <+: ops ->
      exists s replies, (initialized quantum).run before = .ok (s, replies) ∧
        s.FrontRuns) <-> Operation.fork ∉ ops := by
  constructor
  · intro hall hmem
    rcases List.append_of_mem hmem with ⟨before, after, hops⟩
    have hfirst : before <+: ops := ⟨Operation.fork :: after, hops.symm⟩
    have hnext : before ++ [Operation.fork] <+: ops := by
      exact ⟨after, by rw [hops]; simp⟩
    rcases hall before hfirst with ⟨s, replies, hrun, hfront⟩
    rcases hall _ hnext with ⟨s', replies', hrun', hfront'⟩
    rcases Machine.run_append_eq_ok_iff.mp hrun' with
      ⟨mid, head, tail, hhead, htail, _⟩
    have hmid : Except.ok (mid, head) = Except.ok (s, replies) :=
      hhead.symm.trans hrun
    cases hmid
    rcases Machine.run_single_eq_ok_iff.mp htail with ⟨reply, hstep, _⟩
    have hs : s.WellFormed := run_wellFormed (initialized_wellFormed quantum) hrun
    exact fork_not_frontRuns hs hfront hstep hfront'
  · intro hnot before hbefore
    rcases run_exists (initialized_wellFormed quantum) before with
      ⟨s, replies, hrun⟩
    exact ⟨s, replies, hrun,
      run_without_fork_frontRuns (fun hmem => hnot (hbefore.subset hmem)) hrun⟩

/-- One fork right after the boot leaves the child running behind its parent. -/
theorem fork_after_boot_two_running :
    exists s, (initialized 100).run [.fork] = .ok (s, [.forked 2]) ∧
      ¬ s.FrontRuns := by
  refine ⟨_, rfl, ?_⟩
  intro hfront
  have hzero : 1 = 0 := (hfront 1 _ rfl).mp rfl
  cases hzero

end Scheduler

end NeurOS
