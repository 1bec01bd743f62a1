import NeurOS.Kernel.Session
import NeurOS.Scheduler.Running

/-!
# The log says who runs

Behind the records of the boot sequence, the last record of a started process names the
process at the front of the run queue, and that process is running.
-/

namespace NeurOS

open Foundation

def startedRecord (pid : Nat) : Log :=
  let name := "kernel"
  { level := .trace
    message := s!"Started process #{pid} ({name})." }

def stoppedRecord (pid : Nat) : Log :=
  let name := "kernel"
  { level := .trace
    message := s!"Stopped process #{pid} ({name})." }

def receivedRecord (scanCode : Nat) : Log where
  level := .trace
  message := s!"Received scan code (0x{Elf.hex scanCode}) from keyboard."

/-- The records end on the start of this process, with no other start behind it.  The first
process needs no record. -/
def LastStarted (records : List Log) (pid : Nat) : Prop :=
  (pid = 1 ∧ forall other, startedRecord other ∉ records) ∨
  exists earlier later, records = earlier ++ startedRecord pid :: later ∧
    forall other, startedRecord other ∉ later

theorem lastStarted_nil : LastStarted [] 1 :=
  Or.inl ⟨rfl, fun _ => List.not_mem_nil⟩

theorem lastStarted_append {records news : List Log} {pid : Nat} (h : LastStarted records pid)
    (hnews : forall other, startedRecord other ∉ news) : LastStarted (records ++ news) pid := by
  have hboth {front : List Log} (hnone : forall other, startedRecord other ∉ front) :
      forall other, startedRecord other ∉ front ++ news := by
    intro other hmem
    rcases List.mem_append.mp hmem with hrecord | hnew
    · exact hnone other hrecord
    · exact hnews other hnew
  rcases h with ⟨hone, hnone⟩ | ⟨earlier, later, hrecords, hnone⟩
  · exact Or.inl ⟨hone, hboth hnone⟩
  · refine Or.inr ⟨earlier, later ++ news, ?_, hboth hnone⟩
    rw [hrecords, List.append_assoc, List.cons_append]

theorem lastStarted_concat (records : List Log) (pid : Nat) :
    LastStarted (records ++ [startedRecord pid]) pid :=
  Or.inr ⟨records, [], rfl, fun _ => List.not_mem_nil⟩

/-!
# Telling records apart
-/

theorem take_literal {first : String} (rest : String) {n : Nat} (h : n <= first.toList.length) :
    (first ++ rest).toList.take n = first.toList.take n := by
  rw [String.toList_append, List.take_append_of_le_length h]

theorem startedRecord_take (pid : Nat) :
    (startedRecord pid).message.toList.take 3 = ['S', 't', 'a'] := by
  change ("Started process #" ++ toString pid ++ " (" ++ "kernel" ++ ").").toList.take 3 = _
  rw [String.append_assoc, String.append_assoc, String.append_assoc, take_literal _ (by simp)]
  simp

theorem receivedRecord_take (scanCode : Nat) :
    (receivedRecord scanCode).message.toList.take 3 = ['R', 'e', 'c'] := by
  change ("Received scan code (0x" ++ Elf.hex scanCode ++ ") from keyboard.").toList.take 3 = _
  rw [String.append_assoc, take_literal _ (by simp)]
  simp

theorem startedRecord_ne {record : Log}
    (h : record.level ≠ .trace ∨ record.message.toList.take 3 ≠ ['S', 't', 'a']) (pid : Nat) :
    startedRecord pid ≠ record := by
  intro heq
  rcases h with hlevel | htake
  · exact hlevel (congrArg Log.level heq).symm
  · rw [← heq, startedRecord_take] at htake
    exact htake rfl

theorem not_mem_single {record : Log}
    (h : record.level ≠ .trace ∨ record.message.toList.take 3 ≠ ['S', 't', 'a']) (pid : Nat) :
    startedRecord pid ∉ [record] := by
  intro hmem
  exact startedRecord_ne h pid (List.mem_singleton.mp hmem)

/-!
# One call of the scheduler
-/

namespace Scheduler

theorem tick_logs {s s' : Scheduler} {logs : List Log} (h : s.tick = .ok (s', logs)) :
    (s'.queue = s.queue ∧
      (logs = [] ∨ logs = [⟨.warn, "Queue doesn't have enough processes to swap."⟩])) ∨
    exists current second rest, s.queue = current :: second :: rest ∧
      s'.queue = second.setState .running :: (rest ++ [current.setState .stopped]) ∧
      logs = [{ level := .trace,
                message := s!"Stopped process #{current.getId} ({current.getName})." },
              { level := .trace,
                message := s!"Started process #{second.getId} ({second.getName})." }] := by
  rcases s with ⟨queue, quantum, remaining⟩
  unfold tick at h
  by_cases hzero : remaining = 0
  · by_cases hlen : queue.length >= 2
    · simp only [if_pos hzero, if_pos hlen] at h
      rcases queue with _ | ⟨current, _ | ⟨second, rest⟩⟩
      · simp at hlen
      · simp at hlen
      · rw [schedule_cons, Outcome.ok_bind] at h
        cases h
        exact Or.inr ⟨current, second, rest, rfl, rfl, rfl⟩
    · simp only [if_pos hzero, if_neg hlen, Outcome.ok_bind] at h
      cases h
      exact Or.inl ⟨rfl, Or.inr rfl⟩
  · simp only [if_neg hzero] at h
    cases h
    exact Or.inl ⟨rfl, Or.inl rfl⟩

theorem fork_queue {s s' : Scheduler} {pid : Nat} (h : s.fork = .ok (s', pid)) :
    exists parent rest, s.queue = parent :: rest ∧
      s'.queue = s.queue ++ [parent.setId (s.queue.length + 1)] := by
  rcases s with ⟨queue, quantum, remaining⟩
  cases queue with
  | nil => cases h
  | cons parent rest =>
      rw [fork_cons] at h
      cases h
      exact ⟨parent, rest, rfl, rfl⟩

end Scheduler

/-!
# One interrupt
-/

namespace Desk

variable {profile : Profile} {initrd : Initrd} {desk after : Desk} {bytes : List UInt8}

/-- Behind the records of the boot sequence the log names the process at the front. -/
structure Audited (booted : List Log) (desk : Desk) : Prop where
  names : forall process, process ∈ desk.console.scheduler.queue -> process.getName = "kernel"
  told : exists records front, desk.console.logger.getLogs = booted ++ records ∧
    desk.console.scheduler.frontId = some front ∧ LastStarted records front

theorem Audited.append {booted news : List Log} (h : Audited booted desk)
    (hlogger : after.console.logger.getLogs = desk.console.logger.getLogs ++ news)
    (hnews : forall other, startedRecord other ∉ news)
    (hfront : after.console.scheduler.frontId = desk.console.scheduler.frontId)
    (hnames : forall process, process ∈ after.console.scheduler.queue ->
      process.getName = "kernel") : Audited booted after := by
  rcases h.told with ⟨records, front, hrecords, hold, hlast⟩
  refine ⟨hnames, records ++ news, front, ?_, hfront.trans hold, lastStarted_append hlast hnews⟩
  rw [hlogger, hrecords, List.append_assoc]

theorem tick_audited {booted : List Log} (h : Audited booted desk) {scheduler : Scheduler}
    {logs : List Log} (htick : desk.console.scheduler.tick = .ok (scheduler, logs)) :
    Audited booted (Kernel.ticked desk (scheduler, logs)) := by
  have hlogger : (Kernel.ticked desk (scheduler, logs)).console.logger.getLogs =
      desk.console.logger.getLogs ++ logs := Logger.record_getLogs _ _
  rcases Scheduler.tick_logs htick with ⟨hqueue, hlogs⟩ |
    ⟨current, second, rest, hold, hqueue, hlogs⟩
  · apply h.append hlogger
    · rcases hlogs with rfl | rfl
      · exact fun _ => List.not_mem_nil
      · exact not_mem_single (Or.inl (by simp))
    · exact congrArg (fun queue => (queue.map Process.getId).head?) hqueue
    · intro process hmem
      change process ∈ scheduler.queue at hmem
      rw [hqueue] at hmem
      exact h.names process hmem
  · have hcurrent : current.getName = "kernel" := h.names current (by rw [hold]; simp)
    have hsecond : second.getName = "kernel" := h.names second (by rw [hold]; simp)
    rcases h.told with ⟨records, front, hrecords, _, _⟩
    refine ⟨?_, records ++ logs, second.getId, ?_, ?_, ?_⟩
    · intro process hmem
      change process ∈ scheduler.queue at hmem
      rw [hqueue] at hmem
      rcases List.mem_cons.mp hmem with rfl | hmem
      · exact hsecond
      rcases List.mem_append.mp hmem with hrest | hlast
      · exact h.names process (by rw [hold]; simp [hrest])
      · rw [List.mem_singleton.mp hlast]
        exact hcurrent
    · rw [hlogger, hrecords, List.append_assoc]
    · show (scheduler.queue.map Process.getId).head? = some second.getId
      rw [hqueue]
      rfl
    · have hsplit : records ++ logs =
          records ++ [stoppedRecord current.getId] ++ [startedRecord second.getId] := by
        rw [hlogs, hcurrent, hsecond, List.append_assoc]
        rfl
      rw [hsplit]
      exact lastStarted_concat _ second.getId

theorem press_audited {booted : List Log} (h : Audited booted desk) (scanCode : Nat) :
    Audited booted (Kernel.pressed desk scanCode) := by
  have hlogger : (Kernel.pressed desk scanCode).console.logger.getLogs =
      desk.console.logger.getLogs ++ [receivedRecord scanCode] := rfl
  exact h.append hlogger (not_mem_single (Or.inr (by simp [receivedRecord_take]))) rfl h.names

theorem fork_audited {booted : List Log} (h : Audited booted desk) {scheduler : Scheduler}
    {pid : Nat} (hfork : desk.console.scheduler.fork = .ok (scheduler, pid)) (shell : Shell) :
    Audited booted { desk with
      console := { desk.console with shell := shell, scheduler := scheduler } } := by
  rcases Scheduler.fork_queue hfork with ⟨parent, rest, hold, hqueue⟩
  have hparent : parent.getName = "kernel" := h.names parent (by rw [hold]; simp)
  have hfront : scheduler.frontId = desk.console.scheduler.frontId := by
    unfold Scheduler.frontId Scheduler.ids
    rw [hqueue, hold]
    rfl
  rcases h.told with ⟨records, front, hrecords, hfirst, hlast⟩
  refine ⟨?_, records, front, hrecords, hfront.trans hfirst, hlast⟩
  intro process hmem
  change process ∈ scheduler.queue at hmem
  rw [hqueue] at hmem
  rcases List.mem_append.mp hmem with hqueued | hchild
  · exact h.names process hqueued
  · rw [List.mem_singleton.mp hchild]
    exact hparent

theorem step_audited {booted : List Log} (h : Audited booted desk) {i : Interrupt}
    (hstep : (machine profile initrd).step desk i = .ok (after, bytes)) :
    Audited booted after := by
  cases i with
  | timer =>
      rw [Kernel.step_timer] at hstep
      rcases Outcome.bind_eq_ok_iff.mp hstep with ⟨⟨scheduler, logs⟩, htick, heq⟩
      cases heq
      exact tick_audited h htick
  | keyboard scanCode =>
      by_cases henter : scanCode = Screen.enter
      · subst henter
        rw [Kernel.step_enter] at hstep
        rcases Outcome.bind_eq_ok_iff.mp hstep with ⟨console, _, hrest⟩
        rcases Outcome.bind_eq_ok_iff.mp hrest with ⟨vga, _, heq⟩
        cases heq
        have hpressed := press_audited h Screen.enter
        exact ⟨hpressed.names, hpressed.told⟩
      · rw [Kernel.step_other _ _ _ henter] at hstep
        cases hstep
        exact press_audited h scanCode
  | serial byte =>
      rcases Outcome.bind_eq_ok_iff.mp hstep with ⟨⟨console, answer⟩, hreply, heq⟩
      cases heq
      rcases Console.reply_spec hreply with ⟨_, hafter⟩ |
        ⟨_, _, scheduler, pid, hfork, hafter, _⟩ | ⟨_, _, hafter, _⟩
      · rw [hafter]
        exact ⟨h.names, h.told⟩
      · rw [hafter]
        exact fork_audited h hfork _
      · rw [hafter]
        exact ⟨h.names, h.told⟩

theorem machine_audited (profile : Profile) (initrd : Initrd) (booted : List Log) :
    (machine profile initrd).Preserves (Audited booted) :=
  fun _ _ _ _ h hstep => step_audited h hstep

end Desk

namespace Kernel

variable {env : Environment} {held : List Lock} {k : Kernel} {is : List Interrupt}

theorem booted_audited (startup : Startup env) :
    Desk.Audited startup.records startup.desk := by
  refine ⟨?_, [], 1, (List.append_nil _).symm, rfl, lastStarted_nil⟩
  intro process hmem
  rw [List.mem_singleton.mp hmem]
  rfl

/-- Whatever interrupts a booted kernel has served, its log starts with the records of the boot
sequence, and behind them names the process that has the processor. -/
theorem log_names_front (startup : Startup env) (h : ServedBy env is held k) :
    exists scheduler records process, k.scheduler = some scheduler ∧
      k.logger.getLogs = startup.records ++ records ∧
      scheduler.queue.head? = some process ∧ process.state = .running ∧
      LastStarted records process.getId := by
  rcases simulates_of_served startup h with ⟨_, desk, answers, hdesk, hholds, _⟩
  have haudited := Machine.run_preserves (Desk.machine_audited env.profile startup.initrd _)
    (booted_audited startup) hdesk
  rcases (Desk.run_after hdesk).scheduler with ⟨replies, hrun⟩
  rw [show startup.desk.console.shell.buffer = [] from new_buffer startup.shell_eq] at hrun
  rcases haudited.told with ⟨records, front, hrecords, hfront, hlast⟩
  rcases hqueue : desk.console.scheduler.queue with _ | ⟨process, rest⟩
  · unfold Scheduler.frontId Scheduler.ids at hfront
    rw [hqueue] at hfront
    cases hfront
  · have hpid : process.getId = front := by
      unfold Scheduler.frontId Scheduler.ids at hfront
      rw [hqueue] at hfront
      exact Option.some.inj hfront
    have hstate := ((Scheduler.reachable_marked hrun).front process (by rw [hqueue]; rfl)).1
    refine ⟨_, records, process, hholds.scheduler, ?_, ?_, hstate, ?_⟩
    · rw [hholds.logger]
      exact hrecords
    · rw [hqueue]
      rfl
    · rw [hpid]
      exact hlast

theorem log_names_front_sample : exists (startup : Startup whole) (k : Kernel)
    (scheduler : Scheduler) (records : List Log) (process : Process),
    ServedBy whole (typing "fork\x0d") [] k ∧ k.scheduler = some scheduler ∧
      k.logger.getLogs = startup.records ++ records ∧
      scheduler.queue.head? = some process ∧ process.state = .running ∧
      LastStarted records process.getId := by
  rcases fork_served with ⟨startup, k, hserved⟩
  rcases log_names_front startup hserved with ⟨scheduler, records, process, hrest⟩
  exact ⟨startup, k, scheduler, records, process, hserved, hrest⟩

end Kernel

end NeurOS
