import NeurOS.Kernel.Model
import NeurOS.Shell.Input
import NeurOS.Vga.Legible

/-!
# How the code of the kernel ends

One lemma for each piece of code that the handlers share, over the locks that are
held around it: where the statics it uses are made and the locks it takes are free,
it ends with the locks as they were.
-/

namespace NeurOS

open Foundation

namespace Kernel

variable {env : Environment} {blocked held : List Lock} {k : Kernel}

/-!
# The log
-/

theorem run_log (h : Free blocked held .logger) (level : Level) (message : String) :
    (log level message).run blocked held k =
      .done () held (k.setLogger (k.logger.log level message)) :=
  Code.run_locked_done h rfl

theorem run_logAll (h : Free blocked held .logger) (logs : List Log) :
    (logAll logs).run blocked held k = .done () held (k.setLogger (k.logger.record logs)) := by
  unfold logAll
  induction logs generalizing k with
  | nil => rfl
  | cons record rest ih =>
      rw [Code.run_forEach_cons, run_log h, Ending.done_bind, ih]
      rfl

/-!
# Statics that are made
-/

theorem run_ramdisk {initrd : Initrd} (h : k.initrd = some initrd) :
    (ramdisk env).run blocked held k = .done initrd held k :=
  Code.run_force_some h setInitrd _

theorem run_vgaStatic {vga : Vga} (h : k.vga = some vga) :
    (vgaStatic env).run blocked held k = .done vga held k :=
  Code.run_force_some h setVga _

theorem run_schedulerStatic {scheduler : Scheduler} (h : k.scheduler = some scheduler) :
    schedulerStatic.run blocked held k = .done scheduler held k :=
  Code.run_force_some h setScheduler _

theorem run_serialConsoleStatic {shell : Shell} (h : k.serialConsole = some shell) :
    (serialConsoleStatic env).run blocked held k = .done shell held k :=
  Code.run_force_some h setSerialConsole _

theorem run_vgaConsoleStatic {shell : Shell} (h : k.vgaConsole = some shell) :
    (vgaConsoleStatic env).run blocked held k = .done shell held k :=
  Code.run_force_some h setVgaConsole _

theorem run_serialStatic {port : Unit} (h : k.serial = some port) :
    (serialStatic env).run blocked held k = .done port held k :=
  Code.run_force_some h setSerial _

/-!
# The ramdisk
-/

def walked (env : Environment) (logger : Logger) : Option (Outcome (Initrd × Logger)) :=
  Initrd.new (Initrd.File.display env.profile) env.ram env.modules env.passes logger

def walkEnding (held : List Lock) (k : Kernel) (logger : Logger) :
    Option (Outcome Initrd.Walk) -> Ending Lock Kernel Initrd
  | none => .cut
  | some (.ok walk) => .done { files := walk.files } held (k.setLogger walk.logger)
  | some (.error p) => .panicked p held (k.setLogger logger)

/-- The walk with the log taken record by record is the walk on the log. -/
theorem run_walkRamdisk (h : Free blocked held .logger) (passes : Nat) (address : Nat)
    (files : List Initrd.File) :
    exists logger, (walkRamdisk env passes address files).run blocked held k =
      walkEnding held k logger
        ((Initrd.walking (Initrd.File.display env.profile) env.ram).run passes
          { address, files, logger := k.logger }) := by
  induction passes generalizing address files k with
  | zero => exact ⟨k.logger, rfl⟩
  | succ passes ih =>
      rw [walkRamdisk]
      by_cases hguard : Initrd.parseBlock env.ram address blockSize ≠ eofBlock
      · have hloop : (Initrd.walking (Initrd.File.display env.profile) env.ram).guard
            { address, files, logger := k.logger } = true := by
          simpa [Initrd.walking] using hguard
        rw [if_pos hguard, Code.run_bind_done Code.run_get, Code.run_bind]
        cases hbody : Initrd.body (Initrd.File.display env.profile) env.ram
            { address, files, logger := k.logger } with
        | error p =>
            rw [Loop.run_fail hloop hbody]
            exact ⟨k.logger, rfl⟩
        | ok walk =>
            have hlocked : (Code.locked Lock.logger
                (Code.modify fun k : Kernel => k.setLogger walk.logger)).run blocked held k =
                  .done () held (k.setLogger walk.logger) :=
              Code.run_locked_done h rfl
            rw [Loop.run_pass hloop hbody, Code.run_lift_ok rfl, Ending.done_bind,
              Code.run_bind_done hlocked]
            exact ih (k := k.setLogger walk.logger) walk.address walk.files
      · have hloop : (Initrd.walking (Initrd.File.display env.profile) env.ram).guard
            { address, files, logger := k.logger } = false := by
          simpa [Initrd.walking] using hguard
        rw [if_neg hguard, Loop.run_stop hloop]
        exact ⟨k.logger, rfl⟩

def ramdiskEnding (held : List Lock) (k : Kernel) : Option (Outcome (Initrd × Logger)) ->
    Ending Lock Kernel Initrd
  | some (.ok (initrd, logger)) => .done initrd held ((k.setLogger logger).setInitrd initrd)
  | _ => .cut

theorem run_ramdisk_new (hinitrd : k.initrd = none) (hfirst : Free blocked held (.first .initrd))
    (hlogger : Free blocked held .logger)
    (hwalked : forall p, walked env k.logger ≠ some (.error p)) :
    (ramdisk env).run blocked held k = ramdiskEnding held k (walked env k.logger) := by
  unfold ramdisk
  rw [Code.run_force_none hfirst hinitrd, Code.run_bind]
  unfold walked Initrd.new at hwalked ⊢
  cases haddress : Initrd.firstModule env.modules with
  | error p =>
      rw [haddress] at hwalked
      exact absurd rfl (hwalked p)
  | ok address =>
      have hfree : Free blocked (.first .initrd :: held) .logger :=
        free_cons hlogger (by simp)
      rcases run_walkRamdisk hfree env.passes address [] with ⟨logger, hwalk⟩
      rw [haddress] at hwalked
      rw [Code.run_lift_ok rfl, Ending.done_bind, hwalk]
      cases hrun : (Initrd.walking (Initrd.File.display env.profile) env.ram).run env.passes
          { address, files := [], logger := k.logger } with
      | none =>
          simp only [hrun]
          rfl
      | some result =>
          simp only [hrun] at hwalked ⊢
          cases result with
          | error p => exact absurd rfl (hwalked p)
          | ok walk =>
              unfold walkEnding
              rw [Ending.done_bind, List.erase_cons_head]
              rfl

/-!
# The framebuffer
-/

theorem run_vgaStatic_new {vga : Vga} {initrd : Initrd} {font : Font} {k' : Kernel}
    (hvga : k.vga = none) (hfirst : Free blocked held (.first .vga))
    (hramdisk : (ramdisk env).run blocked (.first .vga :: held) k =
      .done initrd (.first .vga :: held) k')
    (hfont : Font.new initrd Font.normalPath = .ok font) (hnew : newVga env font = .ok vga) :
    (vgaStatic env).run blocked held k = .done vga held (k'.setVga vga) := by
  apply Code.run_force_done hfirst hvga
  rw [Code.run_bind_done hramdisk, Code.run_bind_done (Code.run_lift_ok hfont)]
  exact Code.run_lift_ok hnew

theorem run_drawing_ok {picture : Traced Pixel Vga} {after : Vga}
    (h : picture.result = .ok after) :
    (drawing picture).run blocked held k =
      .done () held (k.present after picture.emitted) := by
  unfold drawing
  rw [Code.run_bind_done (Code.run_modify _), Code.run_bind_done (Code.run_lift_ok h)]
  rfl

theorem run_drawing_error {picture : Traced Pixel Vga} {p : Panic}
    (h : picture.result = .error p) :
    (drawing picture).run blocked held k = .panicked p held (k.draw picture.emitted) := by
  unfold drawing
  rw [Code.run_bind_done (Code.run_modify _), Code.run_bind, h]
  rfl

theorem run_clear {vga : Vga} (h : k.vga = some vga) :
    (clear env).run blocked held k = .done () held
      (k.present (vga.setCursor 8 24 Color.white Color.black) vga.clear.emitted) := by
  unfold clear
  rw [Code.run_bind_done (run_vgaStatic h)]
  exact run_drawing_ok (Vga.clear_result vga)

theorem run_write (env : Environment) {vga : Vga} {initrd : Initrd} (hvga : k.vga = some vga)
    (hinitrd : k.initrd = some initrd) (hhigh : vga.High) {s : String}
    (hlegible : Vga.legible initrd s.toList = true) :
    exists after, after.High ∧ (vga.writeStr env.profile initrd s).result = .ok after ∧
      (write env s).run blocked held k =
        .done () held (k.present after (vga.writeStr env.profile initrd s).emitted) := by
  rcases Vga.writeStr_legible env.profile hhigh hlegible with ⟨after, hwrite, hafter⟩
  refine ⟨after, hafter, hwrite, ?_⟩
  unfold write
  rw [Code.run_bind_done (run_vgaStatic hvga), Code.run_bind_done (run_ramdisk hinitrd)]
  exact run_drawing_ok hwrite

theorem run_writes (env : Environment) {α : Type} (text : α -> String) {initrd : Initrd}
    (items : List α) {vga : Vga} (hvga : k.vga = some vga) (hinitrd : k.initrd = some initrd)
    (hhigh : vga.High)
    (hlegible : forall item, item ∈ items -> Vga.legible initrd (text item).toList = true) :
    exists after, after.High ∧
      (vga.writeAll env.profile initrd (items.map text)).result = .ok after ∧
      (Code.forEach (fun item => write env (text item)) items).run blocked held k =
        .done () held
          (k.present after (vga.writeAll env.profile initrd (items.map text)).emitted) := by
  induction items generalizing k vga with
  | nil =>
      refine ⟨vga, hhigh, rfl, ?_⟩
      have hsame : k.present vga [] = k := by
        unfold present draw setVga
        rw [List.append_nil, ← hvga]
      show Ending.done () held k = .done () held (k.present vga [])
      rw [hsame]
  | cons item rest ih =>
      rcases run_write env hvga hinitrd hhigh (hlegible item List.mem_cons_self) with
        ⟨middle, hmiddle, hresult, hwrite⟩
      rcases ih (k := k.present middle (vga.writeStr env.profile initrd (text item)).emitted)
        rfl hinitrd hmiddle (fun item hitem => hlegible item (List.mem_cons_of_mem _ hitem)) with
        ⟨after, hafter, hrest, hwrites⟩
      refine ⟨after, hafter, ?_, ?_⟩
      · rw [List.map_cons, Vga.writeAll, Traced.bind_ok hresult]
        exact hrest
      · rw [Code.run_forEach_cons, hwrite, Ending.done_bind, hwrites, List.map_cons,
          Vga.writeAll, Traced.bind_ok hresult]
        unfold present draw setVga Traced.after
        rw [List.append_assoc]

/-!
# The serial port
-/

section Serial

variable {initrd : Initrd} {scheduler : Scheduler} {shell : Shell} {byte : UInt8}

theorem transmit_transmit (k : Kernel) (first second : List UInt8) :
    (k.transmit first).transmit second = k.transmit (first ++ second) := by
  simp [transmit]

theorem transmit_nil (k : Kernel) : k.transmit [] = k := by
  simp [transmit]

theorem setScheduler_same (h : k.scheduler = some scheduler) : k.setScheduler scheduler = k := by
  unfold setScheduler
  rw [← h]

theorem run_transmitText (s : String) : (transmitText s).run blocked held k =
    .done ⟨⟩ held (k.transmit (Serial.writeStr s)) :=
  Code.run_modify _

theorem run_runCommand_ok {console after : Console} {command text : String}
    {argument : Option String}
    (h : console.execute env.profile initrd command argument = .ok (after, text)) :
    (runCommand env initrd console command argument).run blocked held k =
      .done (after, text) held (k.setScheduler after.scheduler) := by
  unfold runCommand
  rw [Code.run_bind_done (Code.run_lift_ok h)]
  rfl

theorem run_runCommand_error {console : Console} {command : String} {argument : Option String}
    {p : Panic} (h : console.execute env.profile initrd command argument = .error p) :
    (runCommand env initrd console command argument).run blocked held k =
      .panicked p held k := by
  unfold runCommand
  rw [Code.run_bind, h]
  rfl

theorem run_feed_ok (hscheduler : k.scheduler = some scheduler) {after : Console}
    {bytes : List UInt8}
    (h : Console.reply env.profile initrd
      { shell := shell, scheduler := scheduler, logger := k.logger, elapsed := k.elapsed }
      byte = .ok (after, bytes)) :
    (feed env initrd shell scheduler byte).run blocked held k =
      .done () held
        (((k.setSerialConsole after.shell).setScheduler after.scheduler).transmit bytes) := by
  unfold feed
  rw [Code.run_bind_done Code.run_get]
  by_cases hreturn : Serial.read byte = '\r'
  · rw [Console.reply_return hreturn] at h
    rcases Outcome.bind_eq_ok_iff.mp h with ⟨⟨console, text⟩, hexecute, heq⟩
    cases heq
    simp only [Console.interpretWith_return _ _ hreturn, Code.run_bind, run_transmitText,
      run_runCommand_ok hexecute, Ending.done_bind, Code.run_pure, Code.run_modify]
    rw [← transmit_transmit, ← transmit_transmit]
    rfl
  · rw [Console.reply_edit env.profile initrd hreturn] at h
    cases h
    have hstate (shell : Shell) (bytes : List UInt8) :
        ((k.setSerialConsole shell).setScheduler scheduler).transmit bytes =
          (k.transmit bytes).setSerialConsole shell := by
      conv_rhs => rw [← setScheduler_same hscheduler]
      rfl
    simp only [Console.interpretWith_edit _ _ hreturn]
    refine Eq.trans ?_ (congrArg (Ending.done () held) (hstate _ _).symm)
    cases Console.echo _ (Serial.read byte) with
    | none =>
        rw [Option.elim_none, Option.elim_none, transmit_nil]
        rfl
    | some text => rfl

theorem run_feed_error {p : Panic}
    (h : Console.reply env.profile initrd
      { shell := shell, scheduler := scheduler, logger := k.logger, elapsed := k.elapsed }
      byte = .error p) :
    (feed env initrd shell scheduler byte).run blocked held k =
      .panicked p held (k.transmit (Serial.writeStr (Ansi.normal ++ "\n"))) := by
  unfold feed
  rw [Code.run_bind_done Code.run_get]
  by_cases hreturn : Serial.read byte = '\r'
  · rw [Console.reply_return hreturn, Outcome.bind_eq_error_iff] at h
    have hexecute := h.resolve_right (by simp)
    simp only [Console.interpretWith_return _ _ hreturn, Code.run_bind, run_transmitText,
      run_runCommand_error hexecute, Ending.done_bind, Ending.panicked_bind]
  · rw [Console.reply_edit env.profile initrd hreturn] at h
    cases h

end Serial

end Kernel

end NeurOS
