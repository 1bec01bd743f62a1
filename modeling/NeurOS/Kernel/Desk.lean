import NeurOS.Foundation.Following
import NeurOS.Kernel.Runs
import NeurOS.Shell.Session

/-!
# The consoles without the kernel around them

The reference for a booted kernel: the console of the serial port and the screen of the
keyboard side by side, with one log between them.  It knows no locks, no statics and no
interrupts of interrupts.  Each handler of the kernel follows one step of it.
-/

namespace NeurOS

open Foundation

/-- The console of the serial port, and the framebuffer with its console once it is used. -/
structure Desk where
  console : Console
  vga : Vga
  vgaConsole : Option Shell

namespace Desk

def press (profile : Profile) (initrd : Initrd) (self : Desk) (scanCode : Nat) :
    Outcome Desk := do
  let screen ← (Screen.interpret profile initrd
    { vga := self.vga, console := self.vgaConsole, logger := self.console.logger }
    scanCode).result
  .ok
    { console := { self.console with logger := screen.logger }
      vga := screen.vga
      vgaConsole := screen.console }

def machine (profile : Profile) (initrd : Initrd) : Machine Desk Interrupt (List UInt8) where
  step self
    | .timer => do
        let console ← self.console.tick
        .ok ({ self with console := console }, [])
    | .keyboard scanCode => do
        let after ← self.press profile initrd scanCode
        .ok (after, [])
    | .serial byte => do
        let (console, bytes) ← self.console.reply profile initrd byte
        .ok ({ self with console := console }, bytes)

end Desk

namespace Kernel

/-- The kernel between two interrupts: its statics hold what the reference holds. -/
structure Holds (initrd : Initrd) (desk : Desk) (k : Kernel) : Prop where
  initrd : k.initrd = some initrd
  scheduler : k.scheduler = some desk.console.scheduler
  serial : k.serial = some ()
  serialConsole : k.serialConsole = some desk.console.shell
  vga : k.vga = some desk.vga
  vgaConsole : k.vgaConsole = desk.vgaConsole
  logger : k.logger = desk.console.logger
  elapsed : k.elapsed = desk.console.elapsed

/-- What a handler owes to the reference step: the statics hold its outcome, its bytes are
transmitted, and no lock stays taken. -/
def Serviced (initrd : Initrd) (k : Kernel) (result : Desk × List UInt8) (held : List Lock)
    (k' : Kernel) : Prop :=
  held = [] ∧ Holds initrd result.1 k' ∧ k'.transmitted = k.transmitted ++ result.2

variable {env : Environment} {blocked held : List Lock} {k : Kernel} {initrd : Initrd}
variable {desk : Desk}

theorem run_endOfInterrupt_idle (k : Kernel) :
    endOfInterrupt.run [] [] k = .done () [] k :=
  Code.run_locked_done ⟨by simp, by simp⟩ rfl

/-!
# The timer
-/

def ticked (desk : Desk) (result : Scheduler × List Log) : Desk :=
  { desk with
    console :=
      { desk.console with
        scheduler := result.1
        logger := desk.console.logger.record result.2
        elapsed := (desk.console.elapsed + 1) % 2 ^ 32 } }

theorem step_timer (profile : Profile) (initrd : Initrd) (desk : Desk) :
    (Desk.machine profile initrd).step desk .timer =
      desk.console.scheduler.tick >>= fun result => .ok (ticked desk result, []) := by
  simp only [Desk.machine, Console.tick]
  cases desk.console.scheduler.tick with
  | ok result => rfl
  | error p => rfl

theorem follows_tick {scheduler : Scheduler} (hscheduler : k.scheduler = some scheduler)
    (hlogger : Free blocked held .logger) :
    (tick.run blocked held k).Follows scheduler.tick fun result _ held' k' => held' = held ∧
      k' = (k.setLogger (k.logger.record result.2)).setScheduler result.1 := by
  unfold tick
  rw [Code.run_bind_done (run_schedulerStatic hscheduler)]
  apply Code.follows_then (Code.follows_lift _)
  intro result _ _ _ hend
  rcases hend with ⟨rfl, rfl, rfl⟩
  rw [Code.run_bind_done (run_logAll hlogger result.2)]
  exact ⟨_, _, _, rfl, rfl, rfl⟩

theorem follows_timer (h : Holds initrd desk k) :
    ((handler env .timer).run [] [] k).Follows
      ((Desk.machine env.profile initrd).step desk .timer) fun result _ held k' =>
        Serviced initrd k result held k' := by
  have hscheduler : k.increment.scheduler = some desk.console.scheduler := h.scheduler
  rw [step_timer]
  unfold handler timerHandler
  rw [Code.run_bind_done (Code.run_modify _),
    Code.run_bind_done (run_schedulerStatic hscheduler)]
  apply Code.follows_bind (Code.follows_locked ⟨by simp, by simp⟩
    (follows_tick hscheduler ⟨by simp, by simp⟩))
  intro result _ _ _ hend
  rcases hend with ⟨rfl, rfl⟩
  rw [run_endOfInterrupt_idle]
  refine ⟨_, rfl, rfl, ?_, (List.append_nil _).symm⟩
  exact
    { h with
      scheduler := rfl
      logger := congrArg (fun logger => Logger.record logger result.2) h.logger
      elapsed := congrArg (fun elapsed => (elapsed + 1) % 2 ^ 32) h.elapsed }

/-!
# The serial port
-/

theorem follows_guarded {α : Type} {outcome : Outcome α} {Q : α -> Kernel -> Prop}
    {scheduler : Scheduler} (hscheduler : k.scheduler = some scheduler)
    (hfree : Free blocked held .scheduler) (hlogger : Free blocked held .logger)
    (command : String) {body : Task Unit}
    (hbody : forall held, (body.run blocked held k).Follows outcome fun a _ held' k' =>
      held' = held ∧ Q a k') :
    ((guarded command body).run blocked held k).Follows outcome fun a _ held' k' =>
      held' = held ∧ Q a k' := by
  unfold guarded
  split
  case h_1 =>
    rw [Code.run_bind_done (run_schedulerStatic hscheduler)]
    exact Code.follows_locked hfree (hbody _)
  case h_2 => exact Code.follows_locked hlogger (hbody _)
  case h_3 => exact hbody held

def Answered (initrd : Initrd) (desk : Desk) (k : Kernel) (result : Console × List UInt8)
    (k' : Kernel) : Prop :=
  Holds initrd { desk with console := result.1 } k' ∧
    k'.transmitted = k.transmitted ++ result.2

theorem follows_feed (h : Holds initrd desk k) (byte : UInt8) :
    ((feed env initrd desk.console.shell desk.console.scheduler byte).run blocked held k).Follows
      (desk.console.reply env.profile initrd byte) fun result _ held' k' =>
        held' = held ∧ Answered initrd desk k result k' := by
  have hconsole : (Console.mk desk.console.shell desk.console.scheduler k.logger k.elapsed) =
      desk.console := by
    rw [h.logger, h.elapsed]
  cases hreply : desk.console.reply env.profile initrd byte with
  | error p =>
      rw [← hconsole] at hreply
      rw [run_feed_error hreply]
      rfl
  | ok result =>
      rcases Console.reply_frame hreply with ⟨buffer, scheduler, hafter⟩
      rw [← hconsole] at hreply
      rw [run_feed_ok h.scheduler hreply]
      refine ⟨result, rfl, rfl, ?_, rfl⟩
      rw [hafter]
      exact
        { h with
          scheduler := rfl
          serialConsole := rfl }

theorem follows_interpret (env : Environment) (h : Holds initrd desk k)
    (hscheduler : Free blocked held .scheduler) (hlogger : Free blocked held .logger)
    (byte : UInt8) :
    ((interpret env byte).run blocked held k).Follows
      (desk.console.reply env.profile initrd byte) fun result _ held' k' =>
        held' = held ∧ Answered initrd desk k result k' := by
  unfold interpret
  rw [Code.run_bind_done (run_serialConsoleStatic h.serialConsole),
    Code.run_bind_done (run_schedulerStatic h.scheduler), Code.run_bind_done (run_ramdisk h.initrd)]
  exact follows_guarded h.scheduler hscheduler hlogger _ fun _ => follows_feed h byte

theorem follows_serial (h : Holds initrd desk k) (byte : UInt8) :
    ((handler env (.serial byte)).run [] [] k).Follows
      ((Desk.machine env.profile initrd).step desk (.serial byte)) fun result _ held k' =>
        Serviced initrd k result held k' := by
  have hbody := follows_interpret env h
    (show Free [] [Lock.serial, .serialConsole] .scheduler from ⟨by simp, by simp⟩)
    ⟨by simp, by simp⟩ byte
  have hserial : ((do
      serialStatic env
      Code.locked .serial (interpret env byte) : Task Unit).run [] [.serialConsole] k).Follows
        (desk.console.reply env.profile initrd byte) fun result _ held' k' =>
          held' = [.serialConsole] ∧ Answered initrd desk k result k' := by
    rw [Code.run_bind_done (run_serialStatic h.serial)]
    exact Code.follows_locked ⟨by simp, by simp⟩ hbody
  unfold handler serialHandler
  rw [Code.run_bind_done (run_serialConsoleStatic h.serialConsole)]
  apply Code.follows_bind (Code.follows_locked ⟨by simp, by simp⟩ hserial)
  intro result _ _ k' hend
  rcases hend with ⟨rfl, hheld, htransmitted⟩
  rw [run_endOfInterrupt_idle]
  exact ⟨_, rfl, rfl, hheld, htransmitted⟩

/-!
# The keyboard
-/

def opened (initrd : Initrd) (desk : Desk) : Outcome (Vga × Shell) :=
  match desk.vgaConsole with
  | some shell => .ok (desk.vga, shell)
  | none => (Screen.initialized initrd desk.vga).result

def displayed (profile : Profile) (initrd : Initrd) (console : Vga × Shell) : Outcome Vga := do
  let texts ← console.2.display initrd
  (console.1.writeAll profile initrd texts).result

def pressed (desk : Desk) (scanCode : Nat) : Desk :=
  { desk with
    console :=
      { desk.console with
        logger := desk.console.logger.log .trace
          s!"Received scan code (0x{Elf.hex scanCode}) from keyboard." } }

theorem step_enter (profile : Profile) (initrd : Initrd) (desk : Desk) :
    (Desk.machine profile initrd).step desk (.keyboard Screen.enter) = (do
      let console ← opened initrd desk
      let vga ← displayed profile initrd console
      .ok ({ pressed desk Screen.enter with vga := vga, vgaConsole := some console.2 }, [])) := by
  simp only [Desk.machine, Desk.press, Screen.interpret, if_true, opened, displayed]
  cases desk.vgaConsole with
  | some shell =>
      simp only [Traced.pure_bind, Traced.bind_result, Traced.lift, bind_assoc, Outcome.ok_bind]
      rfl
  | none =>
      simp only [Traced.bind_result, Traced.lift, bind_assoc]
      rfl

theorem step_other (profile : Profile) (initrd : Initrd) (desk : Desk) {scanCode : Nat}
    (h : scanCode ≠ Screen.enter) :
    (Desk.machine profile initrd).step desk (.keyboard scanCode) =
      .ok (pressed desk scanCode, []) := by
  simp only [Desk.machine, Desk.press, Screen.interpret, if_neg h]
  rfl

theorem follows_newVgaShell {vga : Vga} (hvga : k.vga = some vga)
    (hramdisk : k.initrd = some initrd) (x y : Nat) :
    ((newVgaShell env x y).run blocked held k).Follows (Shell.new initrd)
      fun shell made held' k' => held' = held ∧ shell = made ∧
        k' = k.present (vga.setCursor x y Color.white Color.black) vga.clear.emitted := by
  let cleared := k.present (vga.setCursor 8 24 Color.white Color.black) vga.clear.emitted
  let taken := cleared.setVga
    ((vga.setCursor 8 24 Color.white Color.black).setCursor x y Color.white Color.black)
  unfold newVgaShell newShell
  rw [Code.run_bind_done (run_clear hvga), Code.run_bind_done (run_vgaStatic (k := cleared) rfl),
    Code.run_bind_done (Code.run_modify _), Code.run_bind_done (run_ramdisk (k := taken) hramdisk)]
  apply Ending.follows_mono (Code.follows_lift (Shell.new initrd))
  intro shell _ _ _ hend
  rcases hend with ⟨rfl, rfl, rfl⟩
  exact ⟨rfl, rfl, rfl⟩

theorem follows_opened (h : Holds initrd desk k) (hvga : Free blocked held .vga)
    (hfirst : Free blocked held (.first .vgaConsole)) :
    ((vgaConsoleStatic env).run blocked held k).Follows (opened initrd desk)
      fun console shell held' k' => held' = held ∧ shell = console.2 ∧
        Holds initrd { desk with vga := console.1, vgaConsole := some console.2 } k' ∧
        k'.transmitted = k.transmitted := by
  unfold opened
  cases hconsole : desk.vgaConsole with
  | some shell =>
      rw [run_vgaConsoleStatic (h.vgaConsole.trans hconsole)]
      refine ⟨_, rfl, rfl, rfl, ?_, rfl⟩
      exact { h with vgaConsole := h.vgaConsole.trans hconsole }
  | none =>
      have hnone : k.vgaConsole = none := h.vgaConsole.trans hconsole
      have hlocked : Free blocked (.first .vgaConsole :: held) .vga := free_cons hvga (by simp)
      unfold vgaConsoleStatic Screen.initialized
      rw [Code.run_force_none hfirst hnone, Code.run_bind_done (run_vgaStatic h.vga)]
      simp only [Traced.bind_result, Vga.clear_result, Outcome.ok_bind, Traced.lift]
      apply Ending.follows_bind (Code.follows_locked hlocked
        (follows_newVgaShell h.vga h.initrd _ _))
      intro shell _ _ _ hend
      rcases hend with ⟨rfl, rfl, rfl⟩
      rw [List.erase_cons_head]
      refine ⟨_, rfl, rfl, rfl, ?_, rfl⟩
      exact { h with vga := rfl, vgaConsole := rfl }

theorem follows_write {vga : Vga} (h : Holds initrd { desk with vga := vga } k) (s : String) :
    ((write env s).run blocked held k).Follows (vga.writeStr env.profile initrd s).result
      fun after _ held' k' => held' = held ∧ Holds initrd { desk with vga := after } k' ∧
        k'.transmitted = k.transmitted := by
  unfold write
  rw [Code.run_bind_done (run_vgaStatic h.vga), Code.run_bind_done (run_ramdisk h.initrd)]
  cases hpicture : (vga.writeStr env.profile initrd s).result with
  | error p =>
      rw [run_drawing_error hpicture]
      rfl
  | ok after =>
      rw [run_drawing_ok hpicture]
      exact ⟨after, rfl, rfl, { h with vga := rfl }, rfl⟩

theorem follows_writes (texts : List String) {vga : Vga}
    (h : Holds initrd { desk with vga := vga } k) :
    ((Code.forEach (write env) texts).run blocked held k).Follows
      (vga.writeAll env.profile initrd texts).result
      fun after _ held' k' => held' = held ∧ Holds initrd { desk with vga := after } k' ∧
        k'.transmitted = k.transmitted := by
  induction texts generalizing k vga with
  | nil => exact ⟨vga, rfl, rfl, h, rfl⟩
  | cons text rest ih =>
      rw [Vga.writeAll, Traced.bind_result]
      apply Code.follows_bind (follows_write h text)
      intro after _ _ k1 hend
      rcases hend with ⟨rfl, h1, htransmitted⟩
      refine Ending.follows_mono (ih h1) ?_
      intro last _ _ k2 hend
      rcases hend with ⟨rfl, h2, htransmitted2⟩
      exact ⟨rfl, h2, htransmitted2.trans htransmitted⟩

theorem follows_displayVga {console : Vga × Shell}
    (h : Holds initrd { desk with vga := console.1 } k) :
    ((displayVga env console.2).run blocked held k).Follows
      (displayed env.profile initrd console)
      fun after _ held' k' => held' = held ∧ Holds initrd { desk with vga := after } k' ∧
        k'.transmitted = k.transmitted := by
  unfold displayVga displayed
  rw [Code.run_bind_done (run_ramdisk h.initrd)]
  apply Code.follows_bind (Code.follows_lift _)
  intro texts _ _ _ hend
  rcases hend with ⟨rfl, rfl, rfl⟩
  exact follows_writes texts h

theorem follows_keyboard (h : Holds initrd desk k) (scanCode : Nat) :
    ((handler env (.keyboard scanCode)).run [] [] k).Follows
      ((Desk.machine env.profile initrd).step desk (.keyboard scanCode))
      fun result _ held k' => Serviced initrd k result held k' := by
  let logged := k.setLogger
    (k.logger.log .trace s!"Received scan code (0x{Elf.hex scanCode}) from keyboard.")
  have hlogged : Holds initrd (pressed desk scanCode) logged :=
    { h with logger := congrArg (fun logger => Logger.log logger .trace _) h.logger }
  have hlog : (log .trace s!"Received scan code (0x{Elf.hex scanCode}) from keyboard.").run []
      [Lock.keyboard] k = .done () [.keyboard] logged := run_log ⟨by simp, by simp⟩ _ _
  unfold handler keyboardHandler
  by_cases henter : scanCode = Screen.enter
  · subst henter
    have hbody : ((do
        log .trace s!"Received scan code (0x{Elf.hex Screen.enter}) from keyboard."
        let shell ← vgaConsoleStatic env
        Code.locked .vgaConsole do
          let _ ← vgaStatic env
          Code.locked .vga (displayVga env shell) : Task Unit).run [] [.keyboard] k).Follows
        (do
          let console ← opened initrd desk
          let vga ← displayed env.profile initrd console
          .ok ({ pressed desk Screen.enter with vga := vga, vgaConsole := some console.2 }, []))
        fun (result : Desk × List UInt8) _ held' k' => held' = [.keyboard] ∧
          Holds initrd result.1 k' ∧ k'.transmitted = k.transmitted ++ result.2 := by
      rw [Code.run_bind_done hlog]
      apply Code.follows_bind (follows_opened hlogged ⟨by simp, by simp⟩ ⟨by simp, by simp⟩)
      intro console _ _ k1 hend
      rcases hend with ⟨rfl, rfl, h1, htransmitted⟩
      let used : Desk := { pressed desk Screen.enter with vgaConsole := some console.2 }
      have hused : Holds initrd { used with vga := console.1 } k1 := h1
      refine Ending.follows_map (Code.follows_locked ⟨by simp, by simp⟩ (Q := fun vga _ k' =>
        Holds initrd { used with vga := vga } k' ∧ k'.transmitted = k1.transmitted) ?_) ?_
      · rw [Code.run_bind_done (run_vgaStatic hused.vga)]
        exact Code.follows_locked ⟨by simp, by simp⟩ (follows_displayVga hused)
      · intro vga _ _ k2 hend
        rcases hend with ⟨rfl, h2, htransmitted2⟩
        refine ⟨rfl, h2, ?_⟩
        rw [htransmitted2, htransmitted, List.append_nil]
        rfl
    rw [step_enter]
    apply Code.follows_then (Code.follows_locked ⟨by simp, by simp⟩ hbody)
    intro result _ _ k' hend
    rcases hend with ⟨rfl, hheld, htransmitted⟩
    exact ⟨_, _, _, run_endOfInterrupt_idle k', rfl, hheld, htransmitted⟩
  · rw [step_other _ _ _ henter, Code.run_bind, Code.run_locked ⟨by simp, by simp⟩,
      Code.run_bind_done hlog, if_neg henter, Code.run_pure, Ending.done_bind, Ending.done_bind,
      List.erase_cons_head, run_endOfInterrupt_idle]
    exact ⟨_, rfl, rfl, hlogged, (List.append_nil _).symm⟩

/-- Every handler follows the step of the reference on its interrupt. -/
theorem follows_handler (env : Environment) (h : Holds initrd desk k) (i : Interrupt) :
    ((handler env i).run [] [] k).Follows ((Desk.machine env.profile initrd).step desk i)
      fun result _ held k' => Serviced initrd k result held k' := by
  cases i with
  | timer => exact follows_timer h
  | keyboard scanCode => exact follows_keyboard h scanCode
  | serial byte => exact follows_serial h byte

end Kernel

end NeurOS
