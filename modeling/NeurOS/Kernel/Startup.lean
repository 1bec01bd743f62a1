import NeurOS.Kernel.Boot
import NeurOS.Kernel.Desk

/-!
# The end of the boot sequence

A boot sequence that finds what it asks for ends with every static but the console of
the framebuffer made, with a known log, and with the greeting of the console on the
serial port.
-/

namespace NeurOS

open Foundation

namespace Kernel

def coresRecord (count : Nat) : Log where
  level := .debug
  message := s!"Detected that the processor has {count} core(s)."

def loadedRecord (initrd : Initrd) : Log where
  level := .debug
  message := s!"Loaded {initrd.getFiles.length} files from the initial ramdisk."

def successRecord : Log where
  level := .info
  message := "The operating system has been successfully initialized."

/-- What the boot sequence finds: a ramdisk whose walk logs some lines, a font and a framebuffer
on which the opening screen can be drawn, and the shell with its greeting. -/
structure Startup (env : Environment) where
  count : Nat
  initrd : Initrd
  lines : List Log
  font : Font
  vga : Vga
  opened : Vga
  shell : Shell
  texts : List String
  memory : env.memory = .ok ()
  cpus : env.cpus = some count
  walk : walked env (Logger.new.record [coresRecord count]) =
    some (.ok (initrd, Logger.new.record (coresRecord count :: lines)))
  font_eq : Font.new initrd Font.normalPath = .ok font
  vga_eq : newVga env font = .ok vga
  opened_eq : (Intro.initializeScreen env.profile initrd env.build vga).result = .ok opened
  shell_eq : Shell.new initrd = .ok shell
  texts_eq : shell.display initrd = .ok texts
  loopback : env.loopback = 0xAE
  star : env.star = .ok ()

namespace Startup

variable {env : Environment}

/-- The log of the boot sequence, in its order. -/
def records (startup : Startup env) : List Log :=
  coresRecord startup.count :: startup.lines ++
    loadedRecord startup.initrd :: (Scheduler.new 100).2 ++ [successRecord]

def greeting (startup : Startup env) : List UInt8 :=
  startup.texts.flatMap Serial.writeStr

/-- The reference of a booted kernel. -/
def desk (startup : Startup env) : Desk where
  console :=
    { shell := startup.shell
      scheduler := Scheduler.initialized 100
      logger := { logs := startup.records }
      elapsed := 0 }
  vga := startup.opened
  vgaConsole := none

def booted (startup : Startup env) : Kernel where
  initrd := some startup.initrd
  scheduler := some (Scheduler.initialized 100)
  serial := some ()
  serialConsole := some startup.shell
  vga := some startup.opened
  vgaConsole := none
  logger := { logs := startup.records }
  elapsed := 0
  transmitted := startup.greeting
  drawn := (Intro.initializeScreen env.profile startup.initrd env.build startup.vga).emitted

theorem booted_holds (startup : Startup env) :
    Holds startup.initrd startup.desk startup.booted where
  initrd := rfl
  scheduler := rfl
  serial := rfl
  serialConsole := rfl
  vga := rfl
  vgaConsole := rfl
  logger := rfl
  elapsed := rfl

end Startup

variable {env : Environment} {k : Kernel}

theorem records_eq (startup : Startup env) :
    (((Logger.new.record (coresRecord startup.count :: startup.lines)).log .debug
      (loadedRecord startup.initrd).message).record (Scheduler.new 100).2).log .info
        successRecord.message = { logs := startup.records } := by
  have hwalked : (Logger.new.record (coresRecord startup.count :: startup.lines)).logs =
      coresRecord startup.count :: startup.lines := Logger.record_getLogs _ _
  have hrecords (logger : Logger) (emitted : List Log) :
      (logger.record emitted).logs = logger.logs ++ emitted := Logger.record_getLogs _ _
  unfold Logger.log
  rw [hrecords, hwalked]
  simp only [Startup.records, List.append_assoc, List.cons_append, List.nil_append]
  rfl

theorem run_initializeScheduler_log (h : k.scheduler = none) :
    initializeScheduler.run [] [] k = .done () []
      ((k.setLogger (k.logger.record (Scheduler.new 100).2)).setScheduler
        (Scheduler.initialized 100)) := by
  have hinit : Code.run [] (do
      logAll (Scheduler.new 100).2
      pure (Scheduler.new 100).1) [.first .scheduler] k =
        .done (Scheduler.new 100).1 [.first .scheduler]
          (k.setLogger (k.logger.record (Scheduler.new 100).2)) := by
    rw [Code.run_bind, run_logAll ⟨by simp, by simp⟩]
    rfl
  have hstatic : schedulerStatic.run [] [] k = .done (Scheduler.new 100).1 [] _ :=
    Code.run_force_done ⟨by simp, by simp⟩ h _ hinit
  unfold initializeScheduler
  rw [Code.run_bind_done hstatic]
  exact Code.run_locked_done ⟨by simp, by simp⟩ rfl

theorem run_initializeShell {initrd : Initrd} {shell : Shell} {texts : List String}
    (hinitrd : k.initrd = some initrd) (hconsole : k.serialConsole = none)
    (hserial : k.serial = none) (hshell : Shell.new initrd = .ok shell)
    (htexts : shell.display initrd = .ok texts) (hloopback : env.loopback = 0xAE) :
    (initializeShell env).run [] [] k = .done () []
      (((k.setSerialConsole shell).setSerial ()).transmit (texts.flatMap Serial.writeStr)) := by
  have hnew : (newShell env).run [] [.first .serialConsole] k =
      .done shell [.first .serialConsole] k := by
    unfold newShell
    rw [Code.run_bind_done (run_ramdisk hinitrd)]
    exact Code.run_lift_ok hshell
  have hstatic : (serialConsoleStatic env).run [] [] k =
      .done shell [] (k.setSerialConsole shell) :=
    Code.run_force_done ⟨by simp, by simp⟩ hconsole _ hnew
  let opened := (k.setSerialConsole shell).setSerial ()
  have hunmade : (k.setSerialConsole shell).serial = none := hserial
  have htest : Code.run [] (if env.loopback = 0xAE then pure () else .panic .assertionFailed)
      [Lock.first .serial, .serialConsole] (k.setSerialConsole shell) =
        .done () [.first .serial, .serialConsole] (k.setSerialConsole shell) := by
    rw [if_pos hloopback]
    rfl
  have hport : (serialStatic env).run [] [.serialConsole] (k.setSerialConsole shell) =
      .done () [.serialConsole] opened :=
    Code.run_force_done ⟨by simp, by simp⟩ hunmade _ htest
  have hdisplay : (displaySerial env shell).run [] [.serial, .serialConsole] opened =
      .done () [.serial, .serialConsole] (opened.transmit (texts.flatMap Serial.writeStr)) := by
    have hopened : opened.initrd = some initrd := hinitrd
    unfold displaySerial
    rw [Code.run_bind_done (run_ramdisk hopened), Code.run_bind_done (Code.run_lift_ok htexts)]
    rfl
  unfold initializeShell
  rw [Code.run_bind_done hstatic]
  apply Code.run_locked_done ⟨by simp, by simp⟩
  rw [Code.run_bind_done (run_serialConsoleStatic (k := k.setSerialConsole shell) rfl),
    Code.run_bind_done hport]
  exact Code.run_locked_done ⟨by simp, by simp⟩ hdisplay

/-- The boot sequence ends, with no lock taken. -/
theorem run_boot (startup : Startup env) :
    (boot env).run [] [] fresh = .done () [] startup.booted := by
  let counted := fresh.setLogger (Logger.new.record [coresRecord startup.count])
  let loaded := (counted.setInitrd startup.initrd).setLogger
    ((Logger.new.record (coresRecord startup.count :: startup.lines)).log .debug
      (loadedRecord startup.initrd).message)
  let scheduled := (loaded.setLogger (loaded.logger.record (Scheduler.new 100).2)).setScheduler
    (Scheduler.initialized 100)
  let drawn := scheduled.present startup.opened
    (Intro.initializeScreen env.profile startup.initrd env.build startup.vga).emitted
  have hsmp : (initializeSmp env).run [] [] fresh = .done () [] counted :=
    run_initializeSmp startup.cpus
  have hinitrd : (initializeInitrd env).run [] [] counted = .done () [] loaded :=
    run_initializeInitrd rfl startup.walk
  have hscheduler : initializeScheduler.run [] [] loaded = .done () [] scheduled :=
    run_initializeScheduler_log rfl
  have hintro : (initializeIntro env).run [] [] scheduled = .done () [] drawn := by
    rw [run_initializeIntro (k := scheduled) rfl rfl startup.font_eq startup.vga_eq,
      startup.opened_eq]
  have hshell := run_initializeShell (k := drawn) rfl rfl rfl startup.shell_eq startup.texts_eq
    startup.loopback
  unfold boot
  rw [Code.run_bind_done (Code.run_lift_ok startup.memory), Code.run_bind,
    Code.run_locked ⟨by simp, by simp⟩, Code.run_pure, Ending.done_bind, Ending.done_bind,
    List.erase_cons_head, Code.run_bind_done hsmp, Code.run_bind_done hinitrd,
    Code.run_bind_done hscheduler, Code.run_bind_done hintro, Code.run_bind_done hshell,
    Code.run_bind_done (Code.run_lift_ok startup.star), run_log ⟨by simp, by simp⟩]
  unfold Startup.booted
  rw [<- records_eq]
  rfl

end Kernel

end NeurOS
