import NeurOS.Foundation.Isolation
import NeurOS.Kernel.Waiting

/-!
# The consoles do not disturb each other

Dropping the interrupts that a console does not serve from a run of a booted kernel
leaves that console as it is.  The screen sees presses of the enter key only.  The
serial port sees its own bytes only, unless a command asks for the log or the time.
-/

namespace NeurOS

open Foundation

namespace Console

open LineEditor

variable {profile : Profile} {initrd : Initrd} {self other after : Console}

/-- The same shell and as many processes. -/
structure Alike (console other : Console) : Prop where
  shell : console.shell = other.shell
  processes : console.scheduler.queue.length = other.scheduler.queue.length

theorem Alike.setBuffer (h : self.Alike other) (buffer : List Char) :
    (self.setBuffer buffer).Alike (other.setBuffer buffer) :=
  ⟨congrArg (fun shell => { shell with buffer := buffer }) h.shell, h.processes⟩

/-- The commands that tell of more than the shell and the processes. -/
def Telling (command : String) : Prop :=
  command = "logs" ∨ command = "time"

theorem fork_alike (h : self.Alike other) {scheduler : Scheduler} {pid : Nat}
    (hfork : self.scheduler.fork = .ok (scheduler, pid)) :
    exists scheduler', other.scheduler.fork = .ok (scheduler', pid) ∧
      scheduler.queue.length = scheduler'.queue.length := by
  rcases hself : self.scheduler with ⟨queue, quantum, remaining⟩
  rcases hother : other.scheduler with ⟨queue', quantum', remaining'⟩
  have hlength := h.processes
  rw [hself, hother] at hlength
  rw [hself] at hfork
  cases queue with
  | nil => cases hfork
  | cons parent rest =>
      cases queue' with
      | nil => cases hlength
      | cons parent' rest' =>
          have hrest : rest.length = rest'.length := Nat.succ.inj hlength
          rw [Scheduler.fork_cons] at hfork ⊢
          cases hfork
          refine ⟨_, by rw [hrest], ?_⟩
          simp [hrest]

theorem execute_alike (h : self.Alike other) {command text : String} {argument : Option String}
    (hcommand : Not (Telling command))
    (hexecute : execute profile initrd self command argument = .ok (after, text)) :
    exists after', execute profile initrd other command argument = .ok (after', text) ∧
      after.Alike after' := by
  unfold execute at hexecute ⊢
  split at hexecute
  case h_2 =>
    rcases Outcome.bind_eq_ok_iff.mp hexecute with ⟨⟨scheduler, pid⟩, hfork, heq⟩
    cases heq
    rcases fork_alike h hfork with ⟨scheduler', hfork', hlength⟩
    simp only [hfork', Outcome.ok_bind]
    exact ⟨_, rfl, h.shell, hlength⟩
  case h_4 =>
    cases hexecute
    rw [h.shell]
    exact ⟨other, rfl, h⟩
  case h_5 => exact absurd (Or.inl rfl) hcommand
  case h_6 =>
    cases hexecute
    rw [h.shell]
    exact ⟨other, rfl, h⟩
  case h_7 =>
    rcases Outcome.bind_eq_ok_iff.mp hexecute with ⟨elf, helf, heq⟩
    cases heq
    simp only [helf, Outcome.ok_bind]
    exact ⟨other, rfl, h⟩
  case h_10 => exact absurd (Or.inr rfl) hcommand
  all_goals
    cases hexecute
    exact ⟨other, rfl, h⟩

theorem reply_alike (h : self.Alike other) {byte : UInt8} {bytes : List UInt8}
    (hcommand : Serial.read byte = '\r' -> Not (Telling (commandOf self.shell.buffer)))
    (hreply : reply profile initrd self byte = .ok (after, bytes)) :
    exists after', reply profile initrd other byte = .ok (after', bytes) ∧
      after.Alike after' := by
  by_cases hreturn : Serial.read byte = '\r'
  · rw [reply_return hreturn] at hreply ⊢
    rcases Outcome.bind_eq_ok_iff.mp hreply with ⟨⟨console, text⟩, hexecute, heq⟩
    cases heq
    have htelling := hcommand hreturn
    rw [← inputOf_command] at htelling
    rcases execute_alike h htelling hexecute with ⟨console', hexecute', halike⟩
    rw [← h.shell, hexecute', Outcome.ok_bind, halike.shell]
    exact ⟨_, rfl, halike.setBuffer []⟩
  · rw [reply_edit profile initrd hreturn] at hreply ⊢
    cases hreply
    unfold echo
    rw [← h.shell]
    exact ⟨_, rfl, h.setBuffer _⟩

theorem tick_alike (h : self.Alike other) (htick : self.tick = .ok after) :
    after.Alike other := by
  rcases Outcome.bind_eq_ok_iff.mp htick with ⟨⟨scheduler, logs⟩, hscheduler, heq⟩
  cases heq
  refine ⟨h.shell, ?_⟩
  rw [<- h.processes]
  rcases Scheduler.tick_logs hscheduler with ⟨hqueue, _⟩ | ⟨current, second, rest, hold, hnew, _⟩
  · exact congrArg List.length hqueue
  · change scheduler.queue.length = _
    rw [hold, hnew]
    simp

end Console

namespace Desk

open LineEditor

variable {profile : Profile} {initrd : Initrd}

def isEnter (i : Interrupt) : Bool :=
  i = .keyboard Screen.enter

def isSerial : Interrupt -> Bool
  | .serial _ => true
  | .timer => false
  | .keyboard _ => false

/-- A byte does not finish a line with one of the telling commands. -/
def Discreet (desk : Desk) (i : Interrupt) : Prop :=
  forall byte, i = .serial byte -> Serial.read byte = '\r' ->
    Not (Console.Telling (commandOf desk.console.shell.buffer))

theorem vga_of_hidden {desk after : Desk} {i : Interrupt} {bytes : List UInt8}
    (hidden : isEnter i = false)
    (hstep : (machine profile initrd).step desk i = .ok (after, bytes)) :
    after.vga = desk.vga ∧ after.vgaConsole = desk.vgaConsole := by
  cases i with
  | timer =>
      rcases Outcome.bind_eq_ok_iff.mp hstep with ⟨console, _, heq⟩
      cases heq
      exact ⟨rfl, rfl⟩
  | keyboard scanCode =>
      have hother : scanCode ≠ Screen.enter := by
        intro henter
        rw [henter] at hidden
        cases hidden
      rw [Kernel.step_other _ _ _ hother] at hstep
      cases hstep
      exact ⟨rfl, rfl⟩
  | serial byte =>
      rcases Outcome.bind_eq_ok_iff.mp hstep with ⟨⟨console, answer⟩, _, heq⟩
      cases heq
      exact ⟨rfl, rfl⟩

theorem screen_isolated (profile : Profile) (initrd : Initrd) :
    (machine profile initrd).Isolates isEnter (fun _ _ => True)
      fun desk other => desk.vga = other.vga ∧ desk.vgaConsole = other.vgaConsole where
  hidden desk other i after bytes hidden hsame hstep := by
    rcases vga_of_hidden hidden hstep with ⟨hvga, hconsole⟩
    exact ⟨hvga.trans hsame.1, hconsole.trans hsame.2⟩
  seen desk other i after bytes hseen _ hsame hstep := by
    rcases hsame with ⟨hvga, hconsole⟩
    have henter : i = .keyboard Screen.enter := of_decide_eq_true hseen
    subst henter
    rw [Kernel.step_enter] at hstep ⊢
    have hopened : Kernel.opened initrd other = Kernel.opened initrd desk := by
      unfold Kernel.opened
      rw [hvga, hconsole]
    rcases Outcome.bind_eq_ok_iff.mp hstep with ⟨console, hfirst, hrest⟩
    rcases Outcome.bind_eq_ok_iff.mp hrest with ⟨vga, hdisplayed, heq⟩
    cases heq
    rw [hopened, hfirst, Outcome.ok_bind, hdisplayed]
    exact ⟨_, rfl, rfl, rfl⟩

theorem serial_isolated (profile : Profile) (initrd : Initrd) :
    (machine profile initrd).Isolates isSerial Discreet
      fun desk other => desk.console.Alike other.console where
  hidden desk other i after bytes hidden hsame hstep := by
    cases i with
    | timer =>
        rcases Outcome.bind_eq_ok_iff.mp hstep with ⟨console, htick, heq⟩
        cases heq
        exact Console.tick_alike hsame htick
    | keyboard scanCode =>
        rcases Outcome.bind_eq_ok_iff.mp hstep with ⟨pressed, hpress, heq⟩
        cases heq
        rcases Outcome.bind_eq_ok_iff.mp hpress with ⟨screen, _, heq⟩
        cases heq
        exact ⟨hsame.shell, hsame.processes⟩
    | serial byte => cases hidden
  seen desk other i after bytes hseen hdiscreet hsame hstep := by
    cases i with
    | timer => cases hseen
    | keyboard scanCode => cases hseen
    | serial byte =>
        rcases Outcome.bind_eq_ok_iff.mp hstep with ⟨⟨console, answer⟩, hreply, heq⟩
        cases heq
        rcases Console.reply_alike hsame (hdiscreet byte rfl) hreply with
          ⟨console', hreply', halike⟩
        refine ⟨{ other with console := console' }, ?_, halike⟩
        exact Outcome.bind_eq_ok_iff.mpr ⟨_, hreply', rfl⟩

theorem hidden_silent {desk after : Desk} {i : Interrupt} {bytes : List UInt8}
    (hidden : isSerial i = false)
    (hstep : (machine profile initrd).step desk i = .ok (after, bytes)) : bytes = [] := by
  cases i with
  | timer =>
      rcases Outcome.bind_eq_ok_iff.mp hstep with ⟨console, _, heq⟩
      cases heq
      rfl
  | keyboard scanCode =>
      rcases Outcome.bind_eq_ok_iff.mp hstep with ⟨pressed, _, heq⟩
      cases heq
      rfl
  | serial byte => cases hidden

theorem discreet_of_dispatched {desk : Desk} {is : List Interrupt}
    (h : forall line, line ∈ dispatched desk.console.shell.buffer (received is) ->
      Not (Console.Telling (commandOf line))) :
    (machine profile initrd).Throughout Discreet desk is := by
  induction is generalizing desk with
  | nil => trivial
  | cons i rest ih =>
      have hrest (hmore : forall line,
          line ∈ dispatched (lineAfter desk.console.shell.buffer i) (received rest) ->
            Not (Console.Telling (commandOf line))) (after : Desk) (bytes : List UInt8)
          (hstep : (machine profile initrd).step desk i = .ok (after, bytes)) :
          (machine profile initrd).Throughout Discreet after rest := by
        have hline : after.console.shell.buffer = lineAfter desk.console.shell.buffer i := by
          rw [(step_after hstep).shell]
          rfl
        exact ih (hline ▸ hmore)
      cases i with
      | timer =>
          refine ⟨?_, hrest h⟩
          intro byte heq
          cases heq
      | keyboard scanCode =>
          refine ⟨?_, hrest h⟩
          intro byte heq
          cases heq
      | serial byte =>
          rw [received_serial, dispatched] at h
          by_cases hreturn : Serial.read byte = '\r'
          · rw [if_pos hreturn] at h
            refine ⟨?_, hrest ?_⟩
            · intro _ _ _
              exact h _ List.mem_cons_self
            · intro line hmem
              rw [lineAfter, if_pos hreturn] at hmem
              exact h line (List.mem_cons_of_mem _ hmem)
          · rw [if_neg hreturn] at h
            refine ⟨?_, hrest ?_⟩
            · intro byte' heq hreturn'
              cases heq
              exact absurd hreturn' hreturn
            · intro line hmem
              rw [lineAfter, if_neg hreturn] at hmem
              exact h line hmem

end Desk

namespace Kernel

open LineEditor Desk

variable {env : Environment} {k : Kernel} {is : List Interrupt}

/-- Dropping all interrupts but the presses of the enter key from a run leaves the screen as it is;
dropping all but the received bytes leaves the serial console and what was transmitted as
they are, unless a finished line asks for the log or the time. -/
theorem consoles_isolated (startup : Startup env) (h : ServedBy env is [] k) :
    (exists k', ServedBy env (is.filter isEnter) [] k' ∧ k'.vga = k.vga ∧
      k'.vgaConsole = k.vgaConsole) ∧
    ((forall line, line ∈ dispatched [] (Desk.received is) ->
        commandOf line ≠ "logs" ∧ commandOf line ≠ "time") ->
      exists k', ServedBy env (is.filter isSerial) [] k' ∧ k'.transmitted = k.transmitted ∧
        k'.serialConsole = k.serialConsole) := by
  rcases simulates_of_served startup h with ⟨_, desk, answers, hdesk, hholds, htransmitted⟩
  constructor
  · rcases Machine.run_visible (screen_isolated env.profile startup.initrd) ⟨rfl, rfl⟩
      (Machine.throughout_true _ _ _) hdesk with ⟨desk', hrun, hvga, hconsole⟩
    rcases served_of_run startup hrun with ⟨k', hserved, hholds', _⟩
    refine ⟨k', hserved, ?_, ?_⟩
    · rw [hholds'.vga, hholds.vga, hvga]
    · rw [hholds'.vgaConsole, hholds.vgaConsole, hconsole]
  · intro hlines
    have hdiscreet : (Desk.machine env.profile startup.initrd).Throughout Discreet
        startup.desk is := by
      apply discreet_of_dispatched
      intro line hmem htelling
      rw [show startup.desk.console.shell.buffer = [] from new_buffer startup.shell_eq] at hmem
      rcases hlines line hmem with ⟨hlogs, htime⟩
      rcases htelling with hcommand | hcommand
      · exact hlogs hcommand
      · exact htime hcommand
    rcases Machine.run_visible (serial_isolated env.profile startup.initrd) ⟨rfl, rfl⟩
      hdiscreet hdesk with ⟨desk', hrun, halike⟩
    rcases served_of_run startup hrun with ⟨k', hserved, hholds', htransmitted'⟩
    refine ⟨k', hserved, ?_, ?_⟩
    · rw [htransmitted', htransmitted]
      exact congrArg (startup.greeting ++ ·)
        (Machine.flatten_answersTo (fun _ _ _ _ => hidden_silent) hdesk)
    · rw [hholds'.serialConsole, hholds.serialConsole, halike.shell]

def mixed : List Interrupt :=
  .timer :: .keyboard Screen.enter :: typing "fork" ++ [.serial 0x0D] ++ [.timer]

theorem mixed_served : exists (_ : Startup whole) (k : Kernel), ServedBy whole mixed [] k := by
  rcases whole_greets with ⟨startup, hgreets, _, _⟩
  have hreturn :
      (.serial 0x0D : Interrupt) ∉ .timer :: .keyboard Screen.enter :: typing "fork" := by
    decide +kernel
  rcases exists_served hgreets hreturn with ⟨typed, htyped, hmade⟩
  rcases run_return_done startup (servedBy_of_served htyped) hmade (by decide +kernel) with
    ⟨forked, hforks, hmade'⟩
  rcases run_timerHandler hmade' with ⟨k, hticks, _⟩
  have hforked : ServedBy whole _ [] forked :=
    Processor.served_next (i := Interrupt.serial 0x0D) (servedBy_of_served htyped) trivial hforks
  exact ⟨startup, k, Processor.served_next (i := Interrupt.timer) hforked trivial hticks⟩

theorem consoles_isolated_sample : exists k : Kernel, ServedBy whole mixed [] k ∧
    (exists k', ServedBy whole (mixed.filter isEnter) [] k' ∧ k'.vga = k.vga ∧
      k'.vgaConsole = k.vgaConsole) ∧
    exists k', ServedBy whole (mixed.filter isSerial) [] k' ∧
      k'.transmitted = k.transmitted ∧ k'.serialConsole = k.serialConsole := by
  rcases mixed_served with ⟨startup, k, hserved⟩
  rcases consoles_isolated startup hserved with ⟨hscreen, hserial⟩
  refine ⟨k, hserved, hscreen, hserial ?_⟩
  intro line hmem
  have hlines : dispatched [] (Desk.received mixed) = ["fork".toList] := rfl
  rw [hlines] at hmem
  rw [List.mem_singleton.mp hmem]
  constructor
  · decide
  · decide

end Kernel

end NeurOS
