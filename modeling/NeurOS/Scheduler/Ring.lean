import NeurOS.Foundation.RoundRobin
import NeurOS.Scheduler.Model
import Mathlib.Data.List.Range
import Mathlib.Data.List.Count

/-!
# The run queue is a round-robin ring

The identifiers in the queue are a permutation of {lit}`1..n`; this is what makes
the queue length plus one a fresh identifier.  Under that invariant the queue,
read through its identifiers, is simulated by the abstract ring: a context switch
is a rotation and a fork is a join.  Waiting times and fairness are then those of
the ring.
-/

namespace NeurOS

open Foundation

namespace Scheduler

def ids (self : Scheduler) : List Nat :=
  self.queue.map Process.getId

def cards (self : Scheduler) : List (Nat × String × Context) :=
  self.queue.map Process.card

structure WellFormed (s : Scheduler) : Prop where
  nonempty : s.queue ≠ []
  numbered : s.ids.Perm (List.range' 1 s.queue.length)

theorem WellFormed.nodup {s : Scheduler} (h : s.WellFormed) : s.ids.Nodup :=
  h.numbered.nodup_iff.mpr List.nodup_range'

theorem WellFormed.fresh {s : Scheduler} (h : s.WellFormed) :
    s.queue.length + 1 ∉ s.ids := by
  intro hmem
  have hrange : s.queue.length + 1 ∈ List.range' 1 s.queue.length :=
    h.numbered.mem_iff.mp hmem
  rw [List.mem_range'_1] at hrange
  lia

theorem initialized_wellFormed (quantum : Nat) : (initialized quantum).WellFormed := by
  constructor
  · intro h
    cases h
  · exact List.Perm.refl [1]

/-!
# One step on the ring
-/

def Reply.events : Reply -> List (RoundRobin.Event Nat)
  | .idle => []
  | .switched _ => [.rotate]
  | .forked pid => [.join pid]

theorem ids_switch (current second : Process) (rest : List Process) :
    (second.setState .running :: (rest ++ [current.setState .stopped])).map
        Process.getId =
      RoundRobin.step ((current :: second :: rest).map Process.getId) .rotate := by
  simp [RoundRobin.step]

theorem step_simulates {s s' : Scheduler} {op : Operation} {reply : Reply}
    (hs : s.WellFormed) (h : machine.step s op = .ok (s', reply)) :
    s'.ids = reply.events.foldl RoundRobin.step s.ids := by
  rcases step_cases hs.nonempty h with hidle | hswitch | hfork
  · rcases hidle with ⟨_, hreply, _, hs'⟩
    rw [hreply, hs']
    rfl
  · rcases hswitch with ⟨current, second, rest, _, hreply, _, hqueue, hs'⟩
    rw [hreply, hs']
    show (second.setState .running ::
      (rest ++ [current.setState .stopped])).map Process.getId = _
    rw [ids_switch, ← hqueue]
    rfl
  · rcases hfork with ⟨parent, rest, _, hreply, hqueue, hs'⟩
    rw [hreply, hs']
    show (s.queue ++ [parent.setId (s.queue.length + 1)]).map Process.getId = _
    rw [List.map_append]
    unfold ids
    rw [hqueue]
    rfl

theorem step_wellFormed : machine.Preserves WellFormed := by
  intro s op s' reply hs h
  have hids : s'.ids = reply.events.foldl RoundRobin.step s.ids :=
    step_simulates hs h
  rcases step_cases hs.nonempty h with hidle | hswitch | hfork
  · rcases hidle with ⟨_, _, _, hs'⟩
    rw [hs']
    exact ⟨hs.nonempty, hs.numbered⟩
  · rcases hswitch with ⟨current, second, rest, _, hreply, _, hqueue, hs'⟩
    have hlen : s'.queue.length = s.queue.length := by
      rw [hs', hqueue]
      simp
    constructor
    · rw [hs']
      simp
    · rw [hids, hreply, hlen]
      have hperm : (RoundRobin.step s.ids .rotate).Perm s.ids := by
        simpa [RoundRobin.joined] using RoundRobin.step_perm s.ids .rotate
      exact hperm.trans hs.numbered
  · rcases hfork with ⟨parent, rest, _, hreply, hqueue, hs'⟩
    have hlen : s'.queue.length = s.queue.length + 1 := by
      rw [hs']
      simp
    constructor
    · rw [hs']
      simp
    · rw [hids, hreply, hlen, List.range'_1_concat]
      have hperm : (RoundRobin.step s.ids (.join (s.queue.length + 1))).Perm
          (s.ids ++ [s.queue.length + 1]) :=
        RoundRobin.step_perm s.ids (.join (s.queue.length + 1))
      rw [Nat.add_comm 1 s.queue.length]
      exact hperm.trans (hs.numbered.append_right _)

/-!
# Runs on the ring
-/

theorem machine_total : machine.Total WellFormed := by
  intro s op hs
  exact step_total hs.nonempty op

theorem run_exists {s : Scheduler} (hs : s.WellFormed) (ops : List Operation) :
    exists s' replies, s.run ops = .ok (s', replies) :=
  Machine.run_total step_wellFormed machine_total hs ops

theorem run_wellFormed {s s' : Scheduler} {ops : List Operation}
    {replies : List Reply} (hs : s.WellFormed)
    (h : s.run ops = .ok (s', replies)) : s'.WellFormed :=
  Machine.run_preserves step_wellFormed hs h

theorem run_simulates {s s' : Scheduler} {ops : List Operation}
    {replies : List Reply} (hs : s.WellFormed)
    (h : s.run ops = .ok (s', replies)) :
    s'.ids = RoundRobin.run s.ids (replies.flatMap Reply.events) :=
  Machine.run_simulates step_wellFormed
    (fun _ _ _ _ hwell hstep => step_simulates hwell hstep) hs h

def broughtToFront : List Reply -> List Nat
  | [] => []
  | .switched front :: rest => front :: broughtToFront rest
  | .idle :: rest => broughtToFront rest
  | .forked _ :: rest => broughtToFront rest

theorem run_turns {s s' : Scheduler} {ops : List Operation}
    {replies : List Reply} (hs : s.WellFormed)
    (h : s.run ops = .ok (s', replies)) :
    RoundRobin.turns s.ids (replies.flatMap Reply.events) =
      (broughtToFront replies).map some := by
  induction ops generalizing s replies with
  | nil =>
      cases h
      rfl
  | cons op rest ih =>
      rcases Machine.run_cons_eq_ok_iff.mp h with
        ⟨mid, reply, tail, hstep, htail, hreplies⟩
      have hmid : mid.WellFormed := step_wellFormed s op mid reply hs hstep
      have hturns : RoundRobin.turns mid.ids (tail.flatMap Reply.events) =
          (broughtToFront tail).map some := ih hmid htail
      have hids : mid.ids = reply.events.foldl RoundRobin.step s.ids :=
        step_simulates hs hstep
      rw [hreplies, List.flatMap_cons, RoundRobin.turns_append]
      show _ ++ RoundRobin.turns (reply.events.foldl RoundRobin.step s.ids) _ = _
      rw [← hids, hturns]
      rcases step_cases hs.nonempty hstep with hidle | hswitch | hfork
      · rcases hidle with ⟨_, hreply, _, _⟩
        rw [hreply]
        rfl
      · rcases hswitch with ⟨current, second, others, _, hreply, _, hqueue, _⟩
        have hring : s.ids = current.getId :: second.getId :: others.map Process.getId := by
          unfold ids
          rw [hqueue]
          rfl
        rw [hreply, hring]
        rfl
      · rcases hfork with ⟨parent, others, _, hreply, _, _⟩
        rw [hreply]
        rfl

theorem run_rotations {s s' : Scheduler} {ops : List Operation}
    {replies : List Reply} (hs : s.WellFormed)
    (h : s.run ops = .ok (s', replies)) :
    RoundRobin.rotations (replies.flatMap Reply.events) =
      (broughtToFront replies).length := by
  rw [← RoundRobin.turns_length s.ids, run_turns hs h, List.length_map]

theorem run_queue_length {s s' : Scheduler} {ops : List Operation}
    {replies : List Reply} (hs : s.WellFormed)
    (h : s.run ops = .ok (s', replies)) :
    s'.queue.length = s.queue.length + ops.count .fork := by
  induction ops generalizing s replies with
  | nil =>
      cases h
      rfl
  | cons op rest ih =>
      rcases Machine.run_cons_eq_ok_iff.mp h with
        ⟨mid, reply, tail, hstep, htail, _⟩
      have hmid : mid.WellFormed := step_wellFormed s op mid reply hs hstep
      rw [ih hmid htail]
      rcases step_cases hs.nonempty hstep with hidle | hswitch | hfork
      · rcases hidle with ⟨hop, _, _, hs'⟩
        rw [hop, hs']
        simp
      · rcases hswitch with ⟨current, second, others, hop, _, _, hqueue, hs'⟩
        rw [hop, hs', hqueue]
        simp
      · rcases hfork with ⟨parent, others, hop, _, _, hs'⟩
        rw [hop, hs']
        simp
        lia

/-!
# Nobody is lost, renamed or duplicated
-/

theorem step_cards {s s' : Scheduler} {op : Operation} {reply : Reply}
    (hs : s.WellFormed) (h : machine.step s op = .ok (s', reply)) :
    exists newcomers, s'.cards.Perm (s.cards ++ newcomers) := by
  rcases step_cases hs.nonempty h with hidle | hswitch | hfork
  · rcases hidle with ⟨_, _, _, hs'⟩
    exists []
    rw [hs', List.append_nil]
    exact List.Perm.refl _
  · rcases hswitch with ⟨current, second, rest, _, _, _, hqueue, hs'⟩
    exists []
    rw [hs', List.append_nil]
    unfold cards
    rw [hqueue]
    have hrotated : (second.setState .running ::
          (rest ++ [current.setState .stopped])).map Process.card =
        (second :: rest).map Process.card ++ [current.card] := by
      simp
    rw [hrotated]
    exact List.perm_append_comm
  · rcases hfork with ⟨parent, rest, _, _, _, hs'⟩
    exists [(parent.setId (s.queue.length + 1)).card]
    rw [hs']
    unfold cards
    rw [List.map_append]
    exact List.Perm.refl _

theorem run_cards {s s' : Scheduler} {ops : List Operation}
    {replies : List Reply} (hs : s.WellFormed)
    (h : s.run ops = .ok (s', replies)) :
    exists newcomers, s'.cards.Perm (s.cards ++ newcomers) := by
  induction ops generalizing s replies with
  | nil =>
      cases h
      exists []
      rw [List.append_nil]
  | cons op rest ih =>
      rcases Machine.run_cons_eq_ok_iff.mp h with
        ⟨mid, reply, tail, hstep, htail, _⟩
      have hmid : mid.WellFormed := step_wellFormed s op mid reply hs hstep
      rcases step_cards hs hstep with ⟨first, hfirst⟩
      rcases ih hmid htail with ⟨later, hlater⟩
      exists first ++ later
      rw [← List.append_assoc]
      exact hlater.trans (hfirst.append_right later)

theorem fork_wellFormed {s : Scheduler} (hs : s.WellFormed) :
    exists parent child, s.queue.head? = some parent ∧
      s.fork = .ok (s.add child, child.getId) ∧
      child.getId = s.queue.length + 1 ∧ child.getName = parent.getName ∧
      child.context = parent.context := by
  cases s with
  | mk queue quantum remaining =>
      cases queue with
      | nil => exact absurd rfl hs.nonempty
      | cons parent rest =>
          exact ⟨parent, parent.setId (rest.length + 2), rfl,
            fork_cons parent rest quantum remaining, rfl, rfl, rfl⟩

/-- In every reachable state the identifiers are {lit}`1..n+1` after {lit}`n`
forks, the next fork is fresh and copies the front process, and nothing that is
queued changes its identity later. -/
theorem reachable_identities (quantum : Nat) (ops : List Operation) :
    exists s replies, (initialized quantum).run ops = .ok (s, replies) ∧
      s.queue.length = ops.count .fork + 1 ∧
      (s.queue.map Process.getId).Perm (List.range' 1 (ops.count .fork + 1)) ∧
      (exists parent child, s.queue.head? = some parent ∧
        s.fork = .ok (s.add child, child.getId) ∧
        child.getId ∉ s.queue.map Process.getId ∧
        child.getName = parent.getName ∧ child.context = parent.context) ∧
      (forall more s' replies', s.run more = .ok (s', replies') ->
        exists newcomers,
          (s'.queue.map Process.card).Perm
            (s.queue.map Process.card ++ newcomers)) := by
  have hboot : (initialized quantum).WellFormed := initialized_wellFormed quantum
  rcases run_exists hboot ops with ⟨s, replies, hrun⟩
  have hs : s.WellFormed := run_wellFormed hboot hrun
  have hlen : s.queue.length = ops.count .fork + 1 := by
    rw [run_queue_length hboot hrun, Nat.add_comm]
    rfl
  refine ⟨s, replies, hrun, hlen, ?_, ?_, ?_⟩
  · rw [← hlen]
    exact hs.numbered
  · rcases fork_wellFormed hs with
      ⟨parent, child, hparent, hfork, hid, hname, hcontext⟩
    refine ⟨parent, child, hparent, hfork, ?_, hname, hcontext⟩
    rw [hid]
    exact hs.fresh
  · intro more s' replies' hmore
    exact run_cards hs hmore

/-!
# Waiting times and fairness
-/

def frontId (self : Scheduler) : Option Nat :=
  self.ids.head?

theorem run_front_iff_position {s s' : Scheduler} {more : List Operation}
    {replies : List Reply} {p : Nat} {x : Nat} (hs : s.WellFormed)
    (hp : s.ids[p]? = some x) (h : s.run more = .ok (s', replies))
    (hle : (broughtToFront replies).length <= p) :
    s'.frontId = some x <-> (broughtToFront replies).length = p := by
  have hcount := run_rotations hs h
  have hids := run_simulates hs h
  have hnodup : s'.ids.Nodup := (run_wellFormed hs h).nodup
  rw [hids] at hnodup
  unfold frontId
  rw [hids]
  constructor
  · intro hfront
    by_contra hne
    exact RoundRobin.not_turn_before hnodup hp (by lia) hfront
  · intro heq
    exact RoundRobin.turn_after hp (hcount.trans heq)

theorem run_waits {s : Scheduler} {p : Nat} {x : Nat} (hs : s.WellFormed)
    (hp : s.ids[p]? = some x) (more : List Operation) :
    exists s' replies, s.run more = .ok (s', replies) ∧
      ((broughtToFront replies).length < p -> s'.frontId ≠ some x) ∧
      ((broughtToFront replies).length = p -> s'.frontId = some x) := by
  rcases run_exists hs more with ⟨s', replies, hmore⟩
  refine ⟨s', replies, hmore, ?_, ?_⟩
  · intro hlt hfront
    have heq := (run_front_iff_position hs hp hmore (Nat.le_of_lt hlt)).mp hfront
    lia
  · intro heq
    exact (run_front_iff_position hs hp hmore (Nat.le_of_eq heq)).mpr heq

theorem fork_position {s forked : Scheduler} {pid : Nat} (hs : s.WellFormed)
    (hfork : s.fork = .ok (forked, pid)) :
    forked.WellFormed ∧ forked.ids[s.queue.length]? = some pid := by
  have hstep : machine.step s .fork = .ok (forked, .forked pid) := by
    show s.step .fork = _
    unfold step
    rw [hfork]
    rfl
  refine ⟨step_wellFormed s .fork forked _ hs hstep, ?_⟩
  rcases fork_wellFormed hs with ⟨parent, child, _, hchild, _, _, _⟩
  rw [hfork] at hchild
  cases hchild
  simp [ids, add]

theorem switch_front {s first : Scheduler} {x : Nat} (hs : s.WellFormed)
    (hstep : machine.step s .tick = .ok (first, .switched x)) :
    first.frontId = some x ∧ forall y, y ∈ first.ids <-> y ∈ s.ids := by
  constructor
  · rcases step_cases hs.nonempty hstep with hidle | hswitch | hfork
    · rcases hidle with ⟨_, hreply, _, _⟩
      cases hreply
    · rcases hswitch with ⟨current, second, rest, _, hreply, _, _, hfirst⟩
      cases hreply
      rw [hfirst]
      rfl
    · rcases hfork with ⟨_, _, hop, _, _, _⟩
      cases hop
  · have hids : first.ids = RoundRobin.step s.ids .rotate := step_simulates hs hstep
    have hperm : (RoundRobin.step s.ids .rotate).Perm s.ids := by
      simpa [RoundRobin.joined] using RoundRobin.step_perm s.ids .rotate
    intro y
    rw [hids]
    exact hperm.mem_iff

theorem run_return_turns {s s' : Scheduler} {more : List Operation}
    {replies : List Reply} {x : Nat} {others : List Nat} (hs : s.WellFormed)
    (hfront : s.frontId = some x) (h : s.run more = .ok (s', replies))
    (hturns : broughtToFront replies = others ++ [x]) (hfirst : x ∉ others) :
    (x :: others).Nodup ∧ forall y, y ∈ s.ids -> y ∈ x :: others := by
  have hids := run_simulates hs h
  have hperm := RoundRobin.run_perm s.ids (replies.flatMap Reply.events)
  rw [← hids] at hperm
  have hnodup : (s.ids ++ RoundRobin.joined (replies.flatMap Reply.events)).Nodup :=
    hperm.nodup_iff.mp (run_wellFormed hs h).nodup
  rcases List.head?_eq_some_iff.mp hfront with ⟨rest, hring⟩
  have hread := run_turns hs h
  rw [hturns] at hread
  rw [hring] at hnodup hread
  rcases RoundRobin.turns_until_return hnodup hread hfirst with
    ⟨newcomers, hprefix, hothers⟩
  constructor
  · rw [hothers, ← List.cons_append]
    exact hnodup.sublist ((List.Sublist.refl _).append hprefix.sublist)
  · intro y hy
    rw [hring] at hy
    rw [hothers, ← List.cons_append]
    exact List.mem_append_left _ hy

/-- Bounded waiting and fairness in every reachable state, however the ticks and
the forks of the continuation are interleaved. -/
theorem round_robin_waiting (quantum : Nat) (ops : List Operation) :
    exists s replies, (initialized quantum).run ops = .ok (s, replies) ∧
      (forall p process, 1 <= p -> s.queue[p]? = some process ->
        forall more, exists s' replies', s.run more = .ok (s', replies') ∧
          ((broughtToFront replies').length < p ->
            s'.frontId ≠ some process.getId) ∧
          ((broughtToFront replies').length = p ->
            s'.frontId = some process.getId)) ∧
      (forall forked pid, s.fork = .ok (forked, pid) ->
        forall more, exists s' replies', forked.run more = .ok (s', replies') ∧
          ((broughtToFront replies').length < s.queue.length ->
            s'.frontId ≠ some pid) ∧
          ((broughtToFront replies').length = s.queue.length ->
            s'.frontId = some pid)) ∧
      (forall first x, machine.step s .tick = .ok (first, .switched x) ->
        forall more s' replies' others, first.run more = .ok (s', replies') ->
          broughtToFront replies' = others ++ [x] -> x ∉ others ->
          forall process, process ∈ s.queue ->
            (x :: others).count process.getId = 1) := by
  have hboot : (initialized quantum).WellFormed := initialized_wellFormed quantum
  rcases run_exists hboot ops with ⟨s, replies, hrun⟩
  have hs : s.WellFormed := run_wellFormed hboot hrun
  refine ⟨s, replies, hrun, ?_, ?_, ?_⟩
  · intro p process _hp hprocess more
    have hid : s.ids[p]? = some process.getId := by
      simp [ids, hprocess]
    exact run_waits hs hid more
  · intro forked pid hfork more
    rcases fork_position hs hfork with ⟨hforked, hid⟩
    exact run_waits hforked hid more
  · intro first x hstep more s' replies' others hmore hturns hfirst process hprocess
    have hwell : first.WellFormed := step_wellFormed s .tick first _ hs hstep
    rcases switch_front hs hstep with ⟨hfront, hsame⟩
    rcases run_return_turns hwell hfront hmore hturns hfirst with ⟨hnodup, hall⟩
    apply List.count_eq_one_of_mem hnodup
    apply hall
    rw [hsame]
    exact List.mem_map_of_mem hprocess

end Scheduler

end NeurOS
