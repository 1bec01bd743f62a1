import NeurOS.Kernel.Runs

/-!
# Interrupts of an idle kernel

The boot sequence makes every static but the console of the framebuffer.  From
there on an interrupt handler gives back the locks that it takes, unless a typed
line names an executable that cannot be read: this panic leaves the locks of the
framebuffer and of the log free.
-/

namespace NeurOS

open Foundation

namespace Kernel

variable {env : Environment} {blocked held : List Lock} {k : Kernel} {initrd : Initrd}

/-- The statics as the boot sequence leaves them. -/
structure Made (initrd : Initrd) (k : Kernel) : Prop where
  ramdisk : k.initrd = some initrd
  scheduler : exists scheduler, k.scheduler = some scheduler ∧ scheduler.queue ≠ []
  serial : k.serial = some ()
  serialConsole : exists shell, k.serialConsole = some shell
  vga : exists vga, k.vga = some vga ∧ (forall shell, k.vgaConsole = some shell -> vga.High)
  shell : exists shell texts, Shell.new initrd = .ok shell ∧ shell.display initrd = .ok texts
  vgaConsole : forall shell, k.vgaConsole = some shell -> Shell.new initrd = .ok shell

def Idle (k : Kernel) : Prop :=
  exists initrd, Made initrd k

/-- What a panic leaves to the panic handler. -/
structure Broken (held : List Lock) (k : Kernel) : Prop where
  vga : Not (.vga ∈ held)
  logger : Not (.logger ∈ held)
  firstVga : Not (.first .vga ∈ held)
  firstInitrd : Not (.first .initrd ∈ held)
  made : (k.vga = none ∧ k.initrd = none) ∨
    exists vga initrd, k.vga = some vga ∧ k.initrd = some initrd

theorem broken_of_some {vga : Vga} (hvga : k.vga = some vga) (hinitrd : k.initrd = some initrd)
    (hfree : forall lock, lock ∈ [.vga, .logger, .first .vga, .first .initrd] ->
      Not (lock ∈ held)) : Broken held k where
  vga := hfree _ (by simp)
  logger := hfree _ (by simp)
  firstVga := hfree _ (by simp)
  firstInitrd := hfree _ (by simp)
  made := Or.inr ⟨vga, initrd, hvga, hinitrd⟩

theorem run_endOfInterrupt (h : Free blocked held .pics) :
    endOfInterrupt.run blocked held k = .done () held k :=
  Code.run_locked_done h rfl

/-!
# The timer
-/

theorem scheduler_tick_total {scheduler : Scheduler} (hqueue : scheduler.queue ≠ []) :
    exists after logs, scheduler.tick = .ok (after, logs) ∧ after.queue ≠ [] := by
  cases hswitch : scheduler.switches with
  | false =>
      rcases Scheduler.tick_of_not_switches hswitch with ⟨logs, htick⟩
      exact ⟨_, logs, htick, hqueue⟩
  | true =>
      rcases Scheduler.tick_of_switches hswitch with ⟨_, _, _, logs, _, htick⟩
      exact ⟨_, logs, htick, List.cons_ne_nil _ _⟩

theorem run_tick (hlogger : Free blocked held .logger) {scheduler after : Scheduler}
    {logs : List Log} (hscheduler : k.scheduler = some scheduler)
    (htick : scheduler.tick = .ok (after, logs)) :
    tick.run blocked held k =
      .done () held ((k.setLogger (k.logger.record logs)).setScheduler after) := by
  unfold tick
  rw [Code.run_bind_done (run_schedulerStatic hscheduler),
    Code.run_bind_done (Code.run_lift_ok htick), Code.run_bind_done (run_logAll hlogger _)]
  rfl

theorem run_timerHandler (hmade : Made initrd k) :
    exists k', timerHandler.run [] [] k = .done () [] k' ∧ Made initrd k' := by
  rcases hmade.scheduler with ⟨scheduler, hscheduler, hqueue⟩
  rcases scheduler_tick_total hqueue with ⟨after, logs, htick, hafter⟩
  let k' := (k.increment.setLogger (k.logger.record logs)).setScheduler after
  have hbody : tick.run [] [.scheduler] k.increment = .done () [.scheduler] k' :=
    run_tick ⟨by simp, by simp⟩ hscheduler htick
  refine ⟨k', ?_, { hmade with scheduler := ⟨after, rfl, hafter⟩ }⟩
  unfold timerHandler
  rw [Code.run_bind_done (Code.run_modify _),
    Code.run_bind_done (run_schedulerStatic (k := k.increment) hscheduler),
    Code.run_bind_done (Code.run_locked_done ⟨by simp, by simp⟩ hbody)]
  exact run_endOfInterrupt ⟨by simp, by simp⟩

/-!
# The serial port
-/

theorem run_guarded_done {scheduler : Scheduler} (hscheduler : k.scheduler = some scheduler)
    (hfree : Free blocked held .scheduler) (hlogger : Free blocked held .logger)
    (command : String) {body : Task Unit} {k' : Kernel}
    (hbody : forall held, body.run blocked held k = .done () held k') :
    (guarded command body).run blocked held k = .done () held k' := by
  unfold guarded
  split
  case h_1 =>
    rw [Code.run_bind_done (run_schedulerStatic hscheduler)]
    exact Code.run_locked_done hfree (hbody _)
  case h_2 => exact Code.run_locked_done hlogger (hbody _)
  case h_3 => exact hbody held

section Serial

variable {scheduler : Scheduler} {shell : Shell} {byte : UInt8}

theorem run_interpret (hmade : Made initrd k)
    (hscheduler : Free blocked held .scheduler) (hlogger : Free blocked held .logger) :
    (exists k', (interpret env byte).run blocked held k = .done () held k' ∧ Made initrd k') ∨
    (Serial.read byte = '\r' ∧ exists p, (interpret env byte).run blocked held k =
      .panicked p held (k.transmit (Serial.writeStr (Ansi.normal ++ "\n")))) := by
  rcases hmade.serialConsole with ⟨shell, hshell⟩
  rcases hmade.scheduler with ⟨scheduler, hmakes, hqueue⟩
  unfold interpret
  rw [Code.run_bind_done (run_serialConsoleStatic hshell),
    Code.run_bind_done (run_schedulerStatic hmakes), Code.run_bind_done (run_ramdisk hmade.ramdisk)]
  let console : Console :=
    { shell := shell, scheduler := scheduler, logger := k.logger, elapsed := k.elapsed }
  have hconsole : console.scheduler.queue ≠ [] := hqueue
  rcases Console.reply_ok_or_readelf env.profile initrd hconsole byte with
    ⟨after, bytes, hok, hafter⟩ | ⟨p, herror, hreturn, hreadelf⟩
  · left
    exact ⟨_, run_guarded_done hmakes hscheduler hlogger _ fun held => run_feed_ok hmakes hok,
      { hmade with
        scheduler := ⟨after.scheduler, rfl, hafter⟩
        serialConsole := ⟨after.shell, rfl⟩ }⟩
  · right
    have hcommand : (Console.parseLine (String.ofList shell.buffer)).1 = "readelf" := by
      rw [Console.parseLine_ofList, LineEditor.inputOf_command]
      exact hreadelf
    rw [if_pos hreturn, hcommand]
    exact ⟨hreturn, p, run_feed_error herror⟩

theorem run_serialHandler (hmade : Made initrd k) (byte : UInt8) :
    (exists k', (serialHandler env byte).run [] [] k = .done () [] k' ∧ Made initrd k') ∨
    (Serial.read byte = '\r' ∧ exists p, (serialHandler env byte).run [] [] k =
      .panicked p [.serial, .serialConsole]
        (k.transmit (Serial.writeStr (Ansi.normal ++ "\n")))) := by
  rcases hmade.serialConsole with ⟨shell, hshell⟩
  have hscheduler : Free [] [Lock.serial, .serialConsole] .scheduler := ⟨by simp, by simp⟩
  have hlogger : Free [] [Lock.serial, .serialConsole] .logger := ⟨by simp, by simp⟩
  unfold serialHandler
  rw [Code.run_bind_done (run_serialConsoleStatic hshell), Code.run_bind,
    Code.run_locked ⟨by simp, by simp⟩, Code.run_bind_done (run_serialStatic hmade.serial),
    Code.run_locked ⟨by simp, by simp⟩]
  rcases run_interpret hmade hscheduler hlogger with ⟨k', hrun, hafter⟩ | ⟨hreturn, p, hrun⟩
  · rw [hrun, Ending.done_bind, Ending.done_bind, Ending.done_bind]
    exact Or.inl ⟨k', run_endOfInterrupt ⟨by simp, by simp⟩, hafter⟩
  · rw [hrun]
    exact Or.inr ⟨hreturn, p, rfl⟩

theorem serialHandler_meets (hmade : Made initrd k) :
    ((serialHandler env byte).run [] [] k).Meets (fun _ held k => held = [] ∧ Idle k)
      (fun _ held k => Broken held k) := by
  rcases run_serialHandler hmade byte with ⟨k', hrun, hafter⟩ | ⟨_, p, hrun⟩
  · rw [hrun]
    exact ⟨rfl, initrd, hafter⟩
  · rcases hmade.vga with ⟨vga, hvga, _⟩
    rw [hrun]
    exact broken_of_some (k := k.transmit _) hvga hmade.ramdisk (by simp)

end Serial

/-!
# The keyboard
-/

def PromptLegible (k : Kernel) : Prop :=
  forall initrd shell texts, k.initrd = some initrd -> Shell.new initrd = .ok shell ->
    shell.display initrd = .ok texts ->
      forall text, text ∈ texts -> Vga.legible initrd text.toList = true

theorem run_newVgaShell {vga : Vga} {shell : Shell} (hvga : k.vga = some vga)
    (hramdisk : k.initrd = some initrd) (hshell : Shell.new initrd = .ok shell) (x y : Nat) :
    (newVgaShell env x y).run blocked held k =
      .done shell held
        (k.present (vga.setCursor x y Color.white Color.black) vga.clear.emitted) := by
  let cleared := k.present (vga.setCursor 8 24 Color.white Color.black) vga.clear.emitted
  let taken := cleared.setVga
    ((vga.setCursor 8 24 Color.white Color.black).setCursor x y Color.white Color.black)
  unfold newVgaShell newShell
  rw [Code.run_bind_done (run_clear hvga), Code.run_bind_done (run_vgaStatic (k := cleared) rfl),
    Code.run_bind_done (Code.run_modify _), Code.run_bind_done (run_ramdisk (k := taken) hramdisk),
    hshell]
  rfl

theorem run_vgaConsole (hmade : Made initrd k) (hfree : Free blocked held .vga)
    (hfirst : Free blocked held (.first .vgaConsole)) :
    exists shell k', (vgaConsoleStatic env).run blocked held k = .done shell held k' ∧
      k'.vgaConsole = some shell ∧ Made initrd k' := by
  cases hconsole : k.vgaConsole with
  | some shell => exact ⟨shell, k, run_vgaConsoleStatic hconsole, hconsole, hmade⟩
  | none =>
      rcases hmade.vga with ⟨vga, hvga, _⟩
      rcases hmade.shell with ⟨shell, texts, hshell, hdisplay⟩
      let x := vga.font.getWidth
      let y := vga.font.getHeight + x
      let after := k.present (vga.setCursor x y Color.white Color.black) vga.clear.emitted
      have hlocked : Free blocked (.first .vgaConsole :: held) .vga := free_cons hfree (by simp)
      have hinit : Code.run blocked (do
          let vga ← vgaStatic env
          let x := vga.font.getWidth
          let y := vga.font.getHeight + x
          Code.locked .vga (newVgaShell env x y)) (.first .vgaConsole :: held) k =
          .done shell (.first .vgaConsole :: held) after := by
        rw [Code.run_bind_done (run_vgaStatic hvga)]
        exact Code.run_locked_done hlocked (run_newVgaShell hvga hmade.ramdisk hshell x y)
      refine ⟨shell, after.setVgaConsole shell, Code.run_force_done hfirst hconsole _ hinit,
        rfl, { hmade with vga := ⟨_, rfl, ?_⟩, vgaConsole := ?_ }⟩
      · intro _ _
        change 12 <= vga.font.getHeight + vga.font.getWidth
        simp
      · intro other hother
        rw [← Option.some.inj hother]
        exact hshell

theorem run_displayVga (hmade : Made initrd k) (hlegible : PromptLegible k) {shell : Shell}
    (hshell : k.vgaConsole = some shell) :
    exists k', (displayVga env shell).run blocked held k = .done () held k' ∧
      Made initrd k' := by
  rcases hmade.vga with ⟨vga, hvga, hhigh⟩
  rcases hmade.shell with ⟨other, texts, hother, hdisplay⟩
  rw [hmade.vgaConsole shell hshell] at hother
  cases hother
  have htexts := hlegible initrd shell texts hmade.ramdisk (hmade.vgaConsole shell hshell) hdisplay
  rcases run_writes env (fun text => text) texts hvga hmade.ramdisk (hhigh shell hshell)
    htexts with ⟨after, hafter, _, hwrites⟩
  let pixels := (vga.writeAll env.profile initrd (texts.map fun text => text)).emitted
  refine ⟨k.present after pixels, ?_,
    { hmade with vga := ⟨after, rfl, fun _ _ => hafter⟩ }⟩
  unfold displayVga
  rw [Code.run_bind_done (run_ramdisk hmade.ramdisk),
    Code.run_bind_done (Code.run_lift_ok hdisplay)]
  exact hwrites

theorem run_keyboardHandler (hmade : Made initrd k) (scanCode : Nat)
    (hlegible : scanCode = Screen.enter -> PromptLegible k) :
    exists k', (keyboardHandler env scanCode).run [] [] k = .done () [] k' ∧
      Made initrd k' := by
  let logged := k.setLogger
    (k.logger.log .trace s!"Received scan code (0x{Elf.hex scanCode}) from keyboard.")
  have hlogged : Made initrd logged := { hmade with }
  unfold keyboardHandler
  rw [Code.run_bind, Code.run_locked ⟨by simp, by simp⟩,
    Code.run_bind_done (run_log ⟨by simp, by simp⟩ _ _)]
  by_cases henter : scanCode = Screen.enter
  · have hprompt : PromptLegible logged := hlegible henter
    have hvga : Free [] [Lock.keyboard] .vga := ⟨by simp, by simp⟩
    have hfirst : Free [] [Lock.keyboard] (.first .vgaConsole) := ⟨by simp, by simp⟩
    rcases run_vgaConsole hlogged hvga hfirst with ⟨shell, k1, hconsole, hshell, hmade1⟩
    have hprompt1 : PromptLegible k1 := by
      intro other _ _ hother
      rw [hmade1.ramdisk, ← hlogged.ramdisk] at hother
      exact hprompt other _ _ hother
    rcases hmade1.vga with ⟨vga, hvga, _⟩
    rcases run_displayVga hmade1 hprompt1 hshell with ⟨k2, hdisplay, hmade2⟩
    rw [if_pos henter, Code.run_bind_done hconsole, Code.run_locked ⟨by simp, by simp⟩,
      Code.run_bind_done (run_vgaStatic hvga), Code.run_locked ⟨by simp, by simp⟩, hdisplay]
    exact ⟨k2, run_endOfInterrupt ⟨by simp, by simp⟩, hmade2⟩
  · rw [if_neg henter]
    exact ⟨logged, run_endOfInterrupt ⟨by simp, by simp⟩, hlogged⟩

theorem handler_meets (i : Interrupt) (h : Idle k)
    (hprompt : i = .keyboard Screen.enter -> PromptLegible k) :
    ((handler env i).run [] [] k).Meets (fun _ held k => held = [] ∧ Idle k)
      (fun _ held k => Broken held k) := by
  rcases h with ⟨initrd, hmade⟩
  cases i with
  | timer =>
      rcases run_timerHandler hmade with ⟨k', hrun, hmade'⟩
      rw [handler, hrun]
      exact ⟨rfl, initrd, hmade'⟩
  | keyboard scanCode =>
      have hlegible : scanCode = Screen.enter -> PromptLegible k :=
        fun henter => hprompt (congrArg Interrupt.keyboard henter)
      rcases run_keyboardHandler hmade scanCode hlegible with ⟨k', hrun, hmade'⟩
      rw [handler, hrun]
      exact ⟨rfl, initrd, hmade'⟩
  | serial byte => exact serialHandler_meets hmade

end Kernel

end NeurOS
