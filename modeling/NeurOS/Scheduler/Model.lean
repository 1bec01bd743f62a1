import NeurOS.Foundation.Machine
import NeurOS.Logger
import NeurOS.Process

/-!
# The process scheduler

A queue of processes whose front has the processor, and a countdown that timer
ticks decrease.  Every operation also returns the log records it emits.

The identifier of a process is a natural number here: the queue length that a
fork turns into an identifier is bounded by the address space, far below the
width of the field.
-/

namespace NeurOS

open Foundation

structure Scheduler where
  queue : List Process
  quantum : Nat
  remaining : Nat
  deriving DecidableEq, Repr

namespace Scheduler

def new (quantum : Nat) : Scheduler × List Log :=
  ({ queue := [], quantum := quantum, remaining := quantum },
    [{ level := .debug,
       message := s!"Created process scheduler with a quantum of {quantum} ticks." }])

def add (self : Scheduler) (process : Process) : Scheduler :=
  { self with queue := self.queue ++ [process] }

def stopBack (queue : List Process) : List Process × List Log :=
  match queue.getLast? with
  | none => (queue, [])
  | some back =>
      (queue.dropLast ++ [back.setState .stopped],
        [{ level := .trace,
           message := s!"Stopped process #{back.getId} ({back.getName})." }])

def startFront : List Process -> List Process × List Log
  | [] => ([], [])
  | front :: rest =>
      (front.setState .running :: rest,
        [{ level := .trace,
           message := s!"Started process #{front.getId} ({front.getName})." }])

def schedule (self : Scheduler) : Outcome (Scheduler × List Log) :=
  match self.queue with
  | [] => .error .unwrapNone
  | current :: rest =>
      let (stopped, stopLogs) := stopBack (rest ++ [current])
      let (started, startLogs) := startFront stopped
      .ok ({ self with queue := started }, stopLogs ++ startLogs)

def tick (self : Scheduler) : Outcome (Scheduler × List Log) :=
  if self.remaining = 0 then do
    let (self, logs) ←
      if self.queue.length >= 2 then
        self.schedule
      else
        .ok (self, [{ level := .warn,
                      message := "Queue doesn't have enough processes to swap." }])
    .ok ({ self with remaining := self.quantum }, logs)
  else
    .ok ({ self with remaining := self.remaining - 1 }, [])

def fork (self : Scheduler) : Outcome (Scheduler × Nat) := do
  let parent ← Outcome.unwrap self.queue.head?
  let child := parent.setId (self.queue.length + 1)
  let pid := child.getId
  .ok (self.add child, pid)

def initialized (quantum : Nat) : Scheduler :=
  (new quantum).1.add (Process.new 1 "kernel" .running)

/-!
# One call of each operation

The lemmas say everything that a call can do to a queue with a front; nothing
later unfolds the operations.
-/

theorem schedule_cons (current second : Process) (rest : List Process)
    (quantum remaining : Nat) :
    (Scheduler.mk (current :: second :: rest) quantum remaining).schedule =
      .ok (Scheduler.mk
          (second.setState .running :: (rest ++ [current.setState .stopped]))
          quantum remaining,
        [{ level := .trace,
           message := s!"Stopped process #{current.getId} ({current.getName})." },
         { level := .trace,
           message := s!"Started process #{second.getId} ({second.getName})." }]) := by
  have hlast : (second :: rest ++ [current]).getLast? = some current :=
    List.getLast?_concat
  have hstop : stopBack (second :: rest ++ [current]) =
      (second :: (rest ++ [current.setState .stopped]),
        [{ level := .trace,
           message := s!"Stopped process #{current.getId} ({current.getName})." }]) := by
    unfold stopBack
    rw [hlast]
    simp only [List.dropLast_concat]
    rfl
  unfold schedule
  simp only [hstop]
  rfl

def switches (self : Scheduler) : Bool :=
  self.remaining == 0 && decide (self.queue.length >= 2)

theorem tick_of_switches {self : Scheduler} (h : self.switches = true) :
    exists current second rest logs,
      self.queue = current :: second :: rest ∧
        self.tick = .ok
          ({ self with
              queue := second.setState .running ::
                (rest ++ [current.setState .stopped]),
              remaining := self.quantum }, logs) := by
  cases self with
  | mk queue quantum remaining =>
      simp only [switches, Bool.and_eq_true, beq_iff_eq, decide_eq_true_eq] at h
      rcases h with ⟨hzero, hlen⟩
      cases queue with
      | nil => simp at hlen
      | cons current queue =>
          cases queue with
          | nil => simp at hlen
          | cons second rest =>
              refine ⟨current, second, rest,
                [{ level := .trace,
                   message := s!"Stopped process #{current.getId} ({current.getName})." },
                 { level := .trace,
                   message := s!"Started process #{second.getId} ({second.getName})." }],
                rfl, ?_⟩
              unfold tick
              simp only [hzero, if_true, if_pos hlen, schedule_cons, Outcome.ok_bind]

theorem tick_of_not_switches {self : Scheduler} (h : self.switches = false) :
    exists logs, self.tick = .ok
      ({ self with
          remaining :=
            if self.remaining = 0 then self.quantum else self.remaining - 1 },
        logs) := by
  unfold tick
  by_cases hzero : self.remaining = 0
  · have hlen : ¬ self.queue.length >= 2 := by
      intro hge
      simp [switches, hzero, hge] at h
    simp only [if_pos hzero, if_neg hlen, Outcome.ok_bind]
    exact ⟨_, rfl⟩
  · simp only [if_neg hzero]
    exact ⟨_, rfl⟩

theorem fork_cons (parent : Process) (rest : List Process)
    (quantum remaining : Nat) :
    (Scheduler.mk (parent :: rest) quantum remaining).fork =
      .ok (Scheduler.mk
          (parent :: rest ++ [parent.setId (rest.length + 2)]) quantum remaining,
        rest.length + 2) := rfl

/-!
# The scheduler as a machine

Timer ticks and forks arrive in any order.  The machine answers a tick with the
process that it brought to the front, if it switched, and a fork with the
identifier it returned.
-/

inductive Operation where
  | tick
  | fork
  deriving DecidableEq, Repr

inductive Reply where
  | idle
  | switched (front : Nat)
  | forked (pid : Nat)
  deriving DecidableEq, Repr

def step (self : Scheduler) : Operation -> Outcome (Scheduler × Reply)
  | .tick => do
      let (after, _) ← self.tick
      match self.switches, after.queue with
      | true, front :: _ => .ok (after, .switched front.getId)
      | _, _ => .ok (after, .idle)
  | .fork => do
      let (after, pid) ← self.fork
      .ok (after, .forked pid)

def machine : Machine Scheduler Operation Reply where
  step := step

def run (self : Scheduler) (ops : List Operation) :
    Outcome (Scheduler × List Reply) :=
  machine.run self ops

/-- Everything that one step can do to a scheduler that has a front process. -/
theorem step_cases {s s' : Scheduler} {op : Operation} {reply : Reply}
    (hne : s.queue ≠ []) (h : machine.step s op = .ok (s', reply)) :
    (op = .tick ∧ reply = .idle ∧ s.switches = false ∧
      s' = { s with
        remaining := if s.remaining = 0 then s.quantum else s.remaining - 1 }) ∨
    (exists current second rest, op = .tick ∧ reply = .switched second.getId ∧
      s.switches = true ∧ s.queue = current :: second :: rest ∧
      s' = { s with
        queue := second.setState .running :: (rest ++ [current.setState .stopped]),
        remaining := s.quantum }) ∨
    (exists parent rest, op = .fork ∧ reply = .forked (s.queue.length + 1) ∧
      s.queue = parent :: rest ∧
      s' = { s with queue := s.queue ++ [parent.setId (s.queue.length + 1)] }) := by
  cases op with
  | tick =>
      change s.step .tick = .ok (s', reply) at h
      unfold step at h
      cases hswitch : s.switches with
      | false =>
          rcases tick_of_not_switches hswitch with ⟨logs, htick⟩
          rw [htick, hswitch] at h
          cases h
          exact Or.inl ⟨rfl, rfl, rfl, rfl⟩
      | true =>
          rcases tick_of_switches hswitch with
            ⟨current, second, rest, logs, hqueue, htick⟩
          rw [htick, hswitch] at h
          cases h
          exact Or.inr (Or.inl ⟨current, second, rest, rfl, rfl, rfl, hqueue, rfl⟩)
  | fork =>
      cases s with
      | mk queue quantum remaining =>
          cases queue with
          | nil => exact absurd rfl hne
          | cons parent rest =>
              cases h
              exact Or.inr (Or.inr ⟨parent, rest, rfl, rfl, rfl, rfl⟩)

theorem step_total {s : Scheduler} (hne : s.queue ≠ []) (op : Operation) :
    exists s' reply, machine.step s op = .ok (s', reply) := by
  cases op with
  | tick =>
      show exists s' reply, s.step .tick = .ok (s', reply)
      unfold step
      cases hswitch : s.switches with
      | false =>
          rcases tick_of_not_switches hswitch with ⟨logs, htick⟩
          rw [htick]
          exact ⟨_, _, rfl⟩
      | true =>
          rcases tick_of_switches hswitch with
            ⟨current, second, rest, logs, _hqueue, htick⟩
          rw [htick]
          exact ⟨_, _, rfl⟩
  | fork =>
      cases s with
      | mk queue quantum remaining =>
          cases queue with
          | nil => exact absurd rfl hne
          | cons parent rest => exact ⟨_, _, rfl⟩

end Scheduler

end NeurOS
