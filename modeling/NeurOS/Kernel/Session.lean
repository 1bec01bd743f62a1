import NeurOS.Kernel.Equipped

/-!
# Sessions of a booted kernel

Which calls the interrupts make on the scheduler, and what the commands answer behind
any interrupts.  Both are read off the interrupts alone, and hold in every run of the
kernel because the kernel refines its consoles.
-/

namespace NeurOS

open Foundation

namespace Desk

open LineEditor

def received (is : List Interrupt) : List UInt8 :=
  is.filterMap fun
    | .serial byte => some byte
    | .timer => none
    | .keyboard _ => none

def lineAfter (line : List Char) : Interrupt -> List Char
  | .serial byte => if Serial.read byte = '\r' then [] else edit line (Serial.read byte)
  | .timer => line
  | .keyboard _ => line

/-- The call of the scheduler that an interrupt makes behind an unfinished line. -/
def operation (line : List Char) : Interrupt -> List Scheduler.Operation
  | .serial byte => if Serial.read byte = '\r' ∧ commandOf line = "fork" then [.fork] else []
  | .timer => [.tick]
  | .keyboard _ => []

def operations : List Char -> List Interrupt -> List Scheduler.Operation
  | _, [] => []
  | line, i :: rest => operation line i ++ operations (lineAfter line i) rest

def lineOf (is : List Interrupt) : List Char :=
  is.foldl lineAfter []

def forks (is : List Interrupt) : Nat :=
  (linesFrom [] (received is)).dropLast.countP fun line => commandOf line = "fork"

/-!
# The interrupts on their own
-/

theorem received_serial (byte : UInt8) (rest : List Interrupt) :
    received (.serial byte :: rest) = byte :: received rest := rfl

theorem linesFrom_received (line : List Char) (is : List Interrupt) :
    exists done, linesFrom line (received is) = done ++ [is.foldl lineAfter line] ∧
      (operations line is).count .fork =
        done.countP fun finished => commandOf finished = "fork" := by
  induction is generalizing line with
  | nil => exact ⟨[], rfl, rfl⟩
  | cons i rest ih =>
      rcases ih (lineAfter line i) with ⟨done, hlines, hforks⟩
      cases i with
      | timer =>
          refine ⟨done, hlines, ?_⟩
          rw [operations, List.count_append, hforks]
          exact Nat.zero_add _
      | keyboard scanCode => exact ⟨done, hlines, hforks⟩
      | serial byte =>
          rw [received_serial, operations, List.count_append, hforks]
          by_cases hreturn : Serial.read byte = '\r'
          · have hbyte := (read_eq_return_iff byte).mp hreturn
            have hempty : lineAfter line (.serial byte) = [] := if_pos hreturn
            refine ⟨line :: done, ?_, ?_⟩
            · rw [hempty] at hlines
              rw [hbyte, linesFrom_return, hlines, List.foldl_cons, ← hbyte, hempty]
              rfl
            · rw [List.countP_cons, operation, Nat.add_comm]
              by_cases hfork : commandOf line = "fork"
              · rw [if_pos ⟨hreturn, hfork⟩, if_pos (by simpa using hfork)]
                rfl
              · rw [if_neg (fun h => hfork h.2), if_neg (by simpa using hfork)]
                rfl
          · have hbyte : byte ≠ 0x0D := fun h => hreturn ((read_eq_return_iff byte).mpr h)
            have hedit : lineAfter line (.serial byte) = edit line (Serial.read byte) :=
              if_neg hreturn
            refine ⟨done, ?_, ?_⟩
            · rw [linesFrom_other hbyte, ← hedit]
              exact hlines
            · rw [operation, if_neg (fun h => hreturn h.1), List.count_nil, Nat.zero_add]

theorem count_fork (is : List Interrupt) : (operations [] is).count .fork = forks is := by
  rcases linesFrom_received [] is with ⟨done, hlines, hforks⟩
  unfold forks
  rw [hlines, List.dropLast_concat, hforks]

theorem count_tick (line : List Char) (is : List Interrupt) :
    (operations line is).count .tick = is.count .timer := by
  induction is generalizing line with
  | nil => rfl
  | cons i rest ih =>
      rw [operations, List.count_append, ih]
      cases i with
      | timer =>
          rw [List.count_cons_self, Nat.add_comm]
          rfl
      | keyboard scanCode =>
          rw [List.count_cons_of_ne (by simp)]
          exact Nat.zero_add _
      | serial byte =>
          rw [List.count_cons_of_ne (by simp), operation]
          split
          · exact Nat.zero_add _
          · exact Nat.zero_add _

/-!
# The machine on the interrupts
-/

theorem step_of_tick {scheduler scheduler' : Scheduler} {logs : List Log}
    (h : scheduler.tick = .ok (scheduler', logs)) :
    exists replies, scheduler.run [.tick] = .ok (scheduler', replies) := by
  have hstep : exists reply, Scheduler.machine.step scheduler .tick = .ok (scheduler', reply) := by
    show exists reply, scheduler.step .tick = .ok (scheduler', reply)
    unfold Scheduler.step
    simp only [h, Outcome.ok_bind]
    split
    · exact ⟨_, rfl⟩
    · exact ⟨_, rfl⟩
  rcases hstep with ⟨reply, hreply⟩
  exact ⟨[reply], Machine.run_single_eq_ok_iff.mpr ⟨reply, hreply, rfl⟩⟩

theorem step_of_fork {scheduler scheduler' : Scheduler} {pid : Nat}
    (h : scheduler.fork = .ok (scheduler', pid)) :
    scheduler.run [.fork] = .ok (scheduler', [.forked pid]) := by
  have hstep : Scheduler.machine.step scheduler .fork = .ok (scheduler', .forked pid) := by
    show scheduler.step .fork = .ok (scheduler', .forked pid)
    unfold Scheduler.step
    simp only [h, Outcome.ok_bind]
  exact Machine.run_single_eq_ok_iff.mpr ⟨_, hstep, rfl⟩

/-- The state behind some interrupts: the calls of the scheduler, the line and the clock. -/
structure After (start : Console) (is : List Interrupt) (console : Console) : Prop where
  scheduler : exists replies,
    start.scheduler.run (operations start.shell.buffer is) = .ok (console.scheduler, replies)
  shell : console.shell =
    { start.shell with buffer := is.foldl lineAfter start.shell.buffer }
  elapsed : start.elapsed < 2 ^ 32 ->
    console.elapsed = (start.elapsed + is.count .timer) % 2 ^ 32

variable {profile : Profile} {initrd : Initrd} {desk after : Desk} {bytes : List UInt8}

/-- The cases are those of the interrupt, and for a byte those of the console. -/
theorem step_after {i : Interrupt}
    (h : (machine profile initrd).step desk i = .ok (after, bytes)) :
    After desk.console [i] after.console := by
  cases i with
  | timer =>
      rcases Outcome.bind_eq_ok_iff.mp h with ⟨console, htick, heq⟩
      cases heq
      rcases Outcome.bind_eq_ok_iff.mp htick with ⟨⟨scheduler, logs⟩, hscheduler, heq⟩
      cases heq
      exact ⟨step_of_tick hscheduler, rfl, fun _ => rfl⟩
  | keyboard scanCode =>
      rcases Outcome.bind_eq_ok_iff.mp h with ⟨pressed, hpress, heq⟩
      cases heq
      rcases Outcome.bind_eq_ok_iff.mp hpress with ⟨screen, _, heq⟩
      cases heq
      exact ⟨⟨[], rfl⟩, rfl, fun hlt => (Nat.mod_eq_of_lt hlt).symm⟩
  | serial byte =>
      rcases Outcome.bind_eq_ok_iff.mp h with ⟨⟨console, answer⟩, hreply, heq⟩
      cases heq
      have hkept : desk.console.elapsed < 2 ^ 32 ->
          desk.console.elapsed = (desk.console.elapsed + 0) % 2 ^ 32 :=
        fun hlt => (Nat.mod_eq_of_lt hlt).symm
      rcases Console.reply_spec hreply with ⟨hreturn, hafter⟩ |
        ⟨hreturn, hfork, scheduler, pid, hscheduler, hafter, _⟩ | ⟨hreturn, hfork, hafter, _⟩
      · rw [hafter]
        refine ⟨⟨[], ?_⟩, ?_, hkept⟩
        · rw [operations, operation, if_neg (fun h => hreturn h.1)]
          rfl
        · rw [List.foldl_cons, lineAfter, if_neg hreturn]
          rfl
      · rw [hafter]
        refine ⟨⟨[.forked pid], ?_⟩, ?_, hkept⟩
        · rw [operations, operation, if_pos ⟨hreturn, hfork⟩]
          exact step_of_fork hscheduler
        · rw [List.foldl_cons, lineAfter, if_pos hreturn]
          rfl
      · rw [hafter]
        refine ⟨⟨[], ?_⟩, ?_, hkept⟩
        · rw [operations, operation, if_neg (fun h => hfork h.2)]
          rfl
        · rw [List.foldl_cons, lineAfter, if_pos hreturn]
          rfl

theorem operations_append (line : List Char) (is more : List Interrupt) :
    operations line (is ++ more) =
      operations line is ++ operations (is.foldl lineAfter line) more := by
  induction is generalizing line with
  | nil => rfl
  | cons i rest ih =>
      rw [List.cons_append, operations, operations, ih, List.append_assoc, List.foldl_cons]

theorem After.append {first middle last : Console} {is more : List Interrupt}
    (h : After first is middle) (h' : After middle more last) :
    After first (is ++ more) last := by
  rcases h.scheduler with ⟨replies, hrun⟩
  rcases h'.scheduler with ⟨replies', hrun'⟩
  have hline : middle.shell.buffer = is.foldl lineAfter first.shell.buffer := by
    rw [h.shell]
  rw [hline] at hrun'
  refine ⟨⟨replies ++ replies', ?_⟩, ?_, ?_⟩
  · rw [operations_append]
    exact Machine.run_append_eq_ok_iff.mpr ⟨_, replies, replies', hrun, hrun', rfl⟩
  · rw [h'.shell, hline, h.shell, List.foldl_append]
  · intro hlt
    have helapsed := h.elapsed hlt
    rw [h'.elapsed (by rw [helapsed]; exact Nat.mod_lt _ (Nat.two_pow_pos 32)), helapsed,
      Nat.mod_add_mod, List.count_append, Nat.add_assoc]

theorem run_after {is : List Interrupt} {answers : List (List UInt8)}
    (h : (machine profile initrd).run desk is = .ok (after, answers)) :
    After desk.console is after.console := by
  induction is generalizing desk answers with
  | nil =>
      cases h
      exact ⟨⟨[], rfl⟩, rfl, fun hlt => (Nat.mod_eq_of_lt hlt).symm⟩
  | cons i rest ih =>
      rcases Machine.run_cons_eq_ok_iff.mp h with ⟨middle, answer, tail, hstep, htail, _⟩
      exact (step_after hstep).append (ih htail)

end Desk

namespace Kernel

variable {env : Environment} {held : List Lock} {k k' : Kernel} {is : List Interrupt}

open LineEditor Desk

theorem new_buffer {initrd : Initrd} {shell : Shell} (h : Shell.new initrd = .ok shell) :
    shell.buffer = [] := by
  unfold Shell.new at h
  simp only [Outcome.bind_eq_ok_iff] at h
  rcases h with ⟨_, _, _, _, _, _, _, _, _, _, _, _, _, _, _, _, _, _, _, _, heq⟩
  cases heq
  rfl

theorem after_of_served (startup : Startup env) (h : ServedBy env is held k) :
    exists desk, Holds startup.initrd desk k ∧ After startup.desk.console is desk.console := by
  rcases simulates_of_served startup h with ⟨_, desk, answers, hdesk, hholds, _⟩
  exact ⟨desk, hholds, run_after hdesk⟩

theorem scheduler_after (startup : Startup env) {console : Console}
    (h : After startup.desk.console is console) :
    console.scheduler.WellFormed ∧ console.scheduler.queue.length = forks is + 1 := by
  have hline : startup.desk.console.shell.buffer = [] := new_buffer startup.shell_eq
  rcases h.scheduler with ⟨replies, hrun⟩
  rw [hline] at hrun
  have hboot := Scheduler.initialized_wellFormed 100
  have hlength := Scheduler.run_queue_length hboot hrun
  rw [count_fork, Nat.add_comm] at hlength
  exact ⟨Scheduler.run_wellFormed hboot hrun, hlength⟩

/-- Whatever interrupts a booted kernel has served, its processes carry the numbers from one on,
one more than lines with the command {lit}`fork` were finished on the serial port, and the
next number is still free. -/
theorem process_table (startup : Startup env) (h : ServedBy env is held k) :
    exists scheduler, k.scheduler = some scheduler ∧
      (scheduler.queue.map Process.getId).Perm (List.range' 1 (forks is + 1)) ∧
      forks is + 2 ∉ scheduler.queue.map Process.getId := by
  rcases after_of_served startup h with ⟨desk, hholds, hafter⟩
  rcases scheduler_after startup hafter with ⟨hwell, hlength⟩
  have hfresh := hwell.fresh
  rw [hlength] at hfresh
  refine ⟨desk.console.scheduler, hholds.scheduler, ?_, hfresh⟩
  rw [← hlength]
  exact hwell.numbered

theorem fork_pid {scheduler scheduler' : Scheduler} {pid : Nat}
    (h : scheduler.fork = .ok (scheduler', pid)) : pid = scheduler.queue.length + 1 := by
  rcases Outcome.bind_eq_ok_iff.mp h with ⟨parent, _, heq⟩
  cases heq
  rfl

def typing (s : String) : List Interrupt :=
  (Text.bytesOf s).map .serial

/-- The whole ramdisk boots a kernel whose console is that of its root user. -/
theorem whole_startup : exists startup : Startup whole,
    startup.desk.console.shell = rootEtc.shell := by
  rcases exists_startup whole_equipped with ⟨startup, _, _, _, hshell, _⟩
  exact ⟨startup, hshell⟩

theorem run_fork (initrd : Initrd) {desk : Desk} (hshell : desk.console.shell = rootEtc.shell)
    (hscheduler : desk.console.scheduler = Scheduler.initialized 100) :
    exists middle after answers bytes,
      (Desk.machine .dev initrd).run desk (typing "fork") = .ok (middle, answers) ∧
      (Desk.machine .dev initrd).step middle (.serial 0x0D) = .ok (after, bytes) := by
  rcases desk with ⟨⟨shell, scheduler, logger, elapsed⟩, vga, vgaConsole⟩
  change shell = rootEtc.shell at hshell
  change scheduler = Scheduler.initialized 100 at hscheduler
  subst hshell
  subst hscheduler
  let console : Console :=
    { shell := { rootEtc.shell with buffer := "fork".toList }
      scheduler := Scheduler.initialized 100
      logger := logger
      elapsed := elapsed }
  have hqueue : console.scheduler.queue ≠ [] := List.cons_ne_nil _ _
  rcases Console.reply_ok_or_readelf .dev initrd hqueue 0x0D with
    ⟨after, bytes, hreply, _⟩ | ⟨_, _, _, hreadelf⟩
  · have hstep : (Desk.machine .dev initrd).step ⟨console, vga, vgaConsole⟩ (.serial 0x0D) =
        .ok (⟨after, vga, vgaConsole⟩, bytes) := by
      simp only [Desk.machine, hreply, Outcome.ok_bind]
    exact ⟨⟨console, vga, vgaConsole⟩, _, _, _, rfl, hstep⟩
  · have hcommand : commandOf console.shell.buffer = "fork" := rfl
    rw [hcommand] at hreadelf
    simp at hreadelf

theorem fork_served : exists (_ : Startup whole) (k : Kernel),
    ServedBy whole (typing "fork\x0d") [] k := by
  rcases whole_startup with ⟨startup, hshell⟩
  rcases run_fork startup.initrd hshell rfl with ⟨middle, after, answers, bytes, hrun, hstep⟩
  have hall : (Desk.machine .dev startup.initrd).run startup.desk
      (typing "fork" ++ [.serial 0x0D]) = .ok (after, answers ++ [bytes]) :=
    Machine.run_append_eq_ok_iff.mpr
      ⟨middle, answers, [bytes], hrun, Machine.run_single_eq_ok_iff.mpr ⟨bytes, hstep, rfl⟩, rfl⟩
  rcases served_of_run startup hall with ⟨k, hserved, _⟩
  exact ⟨startup, k, hserved⟩

theorem idle_kernel_simulates_sample : exists (startup : Startup whole) (k : Kernel)
    (is : List Interrupt) (desk : Desk),
    (processor whole).Reaches (fun _ _ => True) (started whole) ⟨k, [⟨.done (), []⟩]⟩ ∧
      Holds startup.initrd desk k ∧ Simulates startup is k := by
  rcases whole_startup with ⟨startup, hshell⟩
  rcases run_fork startup.initrd hshell rfl with ⟨desk, _, answers, _, hrun, _⟩
  rcases idle_kernel_simulates startup with ⟨hidle, hruns⟩
  rcases hruns (typing "fork") desk answers hrun with ⟨k, hreaches, hholds, _⟩
  rcases hidle k [] hreaches with ⟨_, is, hsimulates⟩
  exact ⟨startup, k, is, desk, hreaches, hholds, hsimulates⟩

theorem process_table_sample : exists k scheduler, ServedBy whole (typing "fork\x0d") [] k ∧
    k.scheduler = some scheduler ∧
    (scheduler.queue.map Process.getId).Perm (List.range' 1 (forks (typing "fork\x0d") + 1)) ∧
    forks (typing "fork\x0d") + 2 ∉ scheduler.queue.map Process.getId := by
  rcases fork_served with ⟨startup, k, hserved⟩
  rcases process_table startup hserved with ⟨scheduler, hscheduler, hperm, hfresh⟩
  exact ⟨k, scheduler, hserved, hscheduler, hperm, hfresh⟩

/-- A carriage return to a booted kernel: whatever interrupts came before, the answer stands
between a new line and the prompt, a fork is given the next number, the time is the number
of timer interrupts, and who works where is what the ramdisk said at boot. -/
theorem command_answers (startup : Startup env) (h : ServedBy env is [] k)
    (hrun : (handler env (.serial 0x0D)).run [] [] k = .done () held k') :
    exists text, k'.transmitted = k.transmitted ++ Console.answer startup.shell.prompt text ∧
      (commandOf (lineOf is) = "fork" -> text = Console.forkText (forks is + 2)) ∧
      (commandOf (lineOf is) = "time" -> text = s!"{is.count .timer % 2 ^ 32}\n") ∧
      (commandOf (lineOf is) = "id" -> text = Console.identityText startup.shell) ∧
      (commandOf (lineOf is) = "pwd" -> text = startup.shell.workingDirectory ++ "\n") ∧
      (commandOf (lineOf is) = "echo" -> text = argumentOf (lineOf is) ++ "\n") ∧
      (commandOf (lineOf is) = "logs" ->
        text = String.join (k.logger.getLogs.map fun log => log.fmt ++ "\n")) ∧
      (commandOf (lineOf is) = "readelf" -> exists elf,
        Elf.new env.profile startup.initrd (argumentOf (lineOf is)) = .ok elf ∧
          text = elf.fmt ++ "\n") := by
  rcases after_of_served startup h with ⟨desk, hholds, hafter⟩
  have hbuffer : startup.desk.console.shell.buffer = [] := new_buffer startup.shell_eq
  have hshell : desk.console.shell = { startup.shell with buffer := lineOf is } := by
    rw [hafter.shell, hbuffer]
    rfl
  have hline : desk.console.shell.buffer = lineOf is := by rw [hshell]
  have hprompt : desk.console.shell.prompt = startup.shell.prompt := by rw [hshell]
  have helapsed : desk.console.elapsed = is.count .timer % 2 ^ 32 := by
    have helapsed := hafter.elapsed (Nat.two_pow_pos 32)
    rw [helapsed]
    exact congrArg (· % 2 ^ 32) (Nat.zero_add _)
  have hfollows := follows_handler env hholds (.serial 0x0D)
  rw [hrun] at hfollows
  rcases hfollows with ⟨⟨after, bytes⟩, hstep, _, _, htransmitted⟩
  rcases Outcome.bind_eq_ok_iff.mp hstep with ⟨⟨console, answer⟩, hreply, heq⟩
  cases heq
  rcases Console.reply_spec hreply with ⟨hreturn, _⟩ |
    ⟨_, hfork, scheduler, pid, hscheduler, _, hbytes⟩ | ⟨_, hfork, _, text, hexecute, hbytes⟩
  · exact absurd rfl hreturn
  · rw [hprompt] at hbytes
    rw [hline] at hfork
    refine ⟨_, by rw [htransmitted, hbytes], ?_⟩
    have hpid : pid = forks is + 2 := by
      rw [fork_pid hscheduler, (scheduler_after startup hafter).2]
    simp [hfork, hpid]
  · rw [hprompt] at hbytes
    rw [hline] at hfork hexecute
    refine ⟨text, by rw [htransmitted, hbytes], fun h => absurd h hfork, ?_, ?_, ?_, ?_, ?_, ?_⟩
    all_goals
      intro hcommand
      rw [hcommand] at hexecute
    · cases hexecute
      rw [helapsed]
    · cases hexecute
      rw [hshell]
      rfl
    · cases hexecute
      rw [hshell]
    · cases hexecute
      rw [inputOf_argument]
    · rw [hholds.logger]
      exact (congrArg Prod.snd (Except.ok.inj hexecute)).symm
    · rcases Outcome.bind_eq_ok_iff.mp hexecute with ⟨elf, helf, heq⟩
      rw [inputOf_argument] at helf
      exact ⟨elf, helf, (congrArg Prod.snd (Except.ok.inj heq)).symm⟩

theorem command_answers_sample : exists startup : Startup whole, exists k k' held,
    ServedBy whole (typing "fork") [] k ∧
    (handler whole (.serial 0x0D)).run [] [] k = .done () held k' ∧
    k'.transmitted = k.transmitted ++ Console.answer startup.shell.prompt (Console.forkText 2) := by
  rcases whole_startup with ⟨startup, hshell⟩
  rcases run_fork startup.initrd hshell rfl with ⟨middle, after, answers, bytes, hrun, hstep⟩
  rcases served_of_run startup hrun with ⟨k, hserved, hholds, _⟩
  rcases Ending.done_of_follows (follows_handler whole hholds (.serial 0x0D)) hstep with
    ⟨_, held, k', hdone, _⟩
  rcases command_answers startup hserved hdone with ⟨text, htransmitted, hfork, _⟩
  have hcommand : commandOf (lineOf (typing "fork")) = "fork" := rfl
  have hforks : forks (typing "fork") = 0 := rfl
  refine ⟨startup, k, k', held, hserved, hdone, ?_⟩
  rw [htransmitted, hfork hcommand, hforks]

end Kernel

end NeurOS
