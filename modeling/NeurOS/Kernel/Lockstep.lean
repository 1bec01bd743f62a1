import NeurOS.Foundation.Lockstep
import NeurOS.Kernel.Session

/-!
# The kernel in lockstep with another log

The code of the kernel up to a panic does the same whatever the log holds, but for what
the command for the log prints.
-/

namespace NeurOS

open Foundation

namespace Console

open LineEditor

variable {profile : Profile} {initrd : Initrd}

def setLogger (self : Console) (logger : Logger) : Console :=
  { self with logger := logger }

/-- With another log, a command does the same, and only the command for the log answers something
else. -/
theorem execute_setLogger (profile : Profile) (initrd : Initrd) (self : Console) (logger : Logger)
    (command : String) (argument : Option String) :
    (exists after text text', execute profile initrd self command argument = .ok (after, text) ∧
      execute profile initrd (self.setLogger logger) command argument =
        .ok (after.setLogger logger, text') ∧
      (command ≠ "logs" -> text' = text)) ∨
    exists p, execute profile initrd self command argument = .error p ∧
      execute profile initrd (self.setLogger logger) command argument = .error p := by
  unfold execute
  split
  case h_2 =>
    cases hfork : self.scheduler.fork with
    | error p => exact Or.inr ⟨p, rfl, by simp only [setLogger, hfork]; rfl⟩
    | ok result =>
        left
        exact ⟨{ self with scheduler := result.1 }, _, _, rfl, by simp only [setLogger, hfork]; rfl,
          fun _ => rfl⟩
  case h_5 =>
    left
    exact ⟨self, _, _, rfl, rfl, fun hne => absurd rfl hne⟩
  case h_7 =>
    cases helf : Elf.new profile initrd (argument.getD "") with
    | error p => exact Or.inr ⟨p, rfl, rfl⟩
    | ok elf =>
        left
        exact ⟨self, _, _, rfl, rfl, fun _ => rfl⟩
  all_goals
    left
    exact ⟨self, _, _, rfl, rfl, fun _ => rfl⟩

end Console

namespace Kernel

open LineEditor

/-- The same statics whatever the logs.  If the log is not asked for, what was transmitted is the
same too, and the console of the serial port meets a condition. -/
structure SameState (quiet : Prop) (P : Option Shell -> Prop) (k k' : Kernel) : Prop where
  initrd : k.initrd = k'.initrd
  scheduler : k.scheduler = k'.scheduler
  serial : k.serial = k'.serial
  serialConsole : k.serialConsole = k'.serialConsole
  vga : k.vga = k'.vga
  vgaConsole : k.vgaConsole = k'.vgaConsole
  elapsed : k.elapsed = k'.elapsed
  drawn : k.drawn = k'.drawn
  transmitted : quiet -> k.transmitted = k'.transmitted
  console : quiet -> P k.serialConsole

section SameState

variable {quiet : Prop} {P : Option Shell -> Prop} {k k' : Kernel}

theorem SameState.setLogger (h : SameState quiet P k k') (logger logger' : Logger) :
    SameState quiet P (k.setLogger logger) (k'.setLogger logger') :=
  { h with }

theorem SameState.setInitrd (h : SameState quiet P k k') (initrd : Initrd) :
    SameState quiet P (k.setInitrd initrd) (k'.setInitrd initrd) :=
  { h with initrd := rfl }

theorem SameState.setScheduler (h : SameState quiet P k k') (scheduler : Scheduler) :
    SameState quiet P (k.setScheduler scheduler) (k'.setScheduler scheduler) :=
  { h with scheduler := rfl }

theorem SameState.setSerial (h : SameState quiet P k k') (port : Unit) :
    SameState quiet P (k.setSerial port) (k'.setSerial port) :=
  { h with serial := rfl }

theorem SameState.setSerialConsole (h : SameState quiet P k k') {shell : Shell}
    (hshell : quiet -> P (some shell)) :
    SameState quiet P (k.setSerialConsole shell) (k'.setSerialConsole shell) :=
  { h with
    serialConsole := rfl
    console := hshell }

theorem SameState.setVga (h : SameState quiet P k k') (vga : Vga) :
    SameState quiet P (k.setVga vga) (k'.setVga vga) :=
  { h with vga := rfl }

theorem SameState.draw (h : SameState quiet P k k') (pixels : List Pixel) :
    SameState quiet P (k.draw pixels) (k'.draw pixels) :=
  { h with
    drawn := by
      show k.drawn ++ pixels = k'.drawn ++ pixels
      rw [h.drawn] }

theorem SameState.setVgaConsole (h : SameState quiet P k k') (shell : Shell) :
    SameState quiet P (k.setVgaConsole shell) (k'.setVgaConsole shell) :=
  { h with vgaConsole := rfl }

theorem SameState.transmit (h : SameState quiet P k k') {bytes bytes' : List UInt8}
    (hbytes : quiet -> bytes = bytes') :
    SameState quiet P (k.transmit bytes) (k'.transmit bytes') :=
  { h with
    transmitted := fun hquiet => by
      show k.transmitted ++ bytes = k'.transmitted ++ bytes'
      rw [h.transmitted hquiet, hbytes hquiet] }

theorem SameState.increment (h : SameState quiet P k k') :
    SameState quiet P k.increment k'.increment :=
  { h with
    elapsed := by
      show (k.elapsed + 1) % 2 ^ 32 = (k'.elapsed + 1) % 2 ^ 32
      rw [h.elapsed] }

end SameState

def Steady {α : Type} (quiet : Prop) (P : Option Shell -> Prop) (task : Task α) : Prop :=
  Code.Alike (SameState quiet P) Eq task task

section Steady

variable {quiet : Prop} {P : Option Shell -> Prop} {env : Environment} {α β : Type}

theorem steady_bind {task : Task α} {f : α -> Task β} (h : Steady quiet P task)
    (hrest : forall a, Steady quiet P (f a)) : Steady quiet P (task >>= f) := by
  apply Code.alike_bind h
  intro a b hab
  subst hab
  exact hrest a

theorem steady_pure (a : α) : Steady quiet P (pure a) :=
  Code.alike_pure rfl

theorem steady_lift (outcome : Outcome α) : Steady quiet P (Code.lift outcome : Task α) :=
  Code.alike_lift_self fun _ _ => rfl

theorem steady_locked (lock : Lock) {body : Task α} (h : Steady quiet P body) :
    Steady quiet P (Code.locked lock body) :=
  Code.alike_locked h

theorem steady_modify {f : Kernel -> Kernel}
    (h : forall k k', SameState quiet P k k' -> SameState quiet P (f k) (f k')) :
    Steady quiet P (Code.modify f : Task Unit) :=
  Code.alike_modify rfl h

theorem steady_force {lock : Lock} {value : Kernel -> Option α} {store : Kernel -> α -> Kernel}
    {init : Task α} (hvalue : forall k k', SameState quiet P k k' -> value k = value k')
    (hstore : forall k k' a, SameState quiet P k k' ->
      SameState quiet P (store k a) (store k' a))
    (hinit : Steady quiet P init) : Steady quiet P (Code.force lock value store init) := by
  let Good : α -> Prop := fun _ => True
  have hgood : forall k k' a, SameState quiet P k k' -> value k = some a -> Good a :=
    fun _ _ _ _ _ => trivial
  have hmade := Code.alike_mono hinit fun a b (h : a = b) => (⟨h, trivial⟩ : a = b ∧ Good a)
  apply Code.alike_mono (Code.alike_force hvalue hgood ?_ hmade)
  · exact fun _ _ h => h.1
  · exact fun k k' a h _ => hstore k k' a h

/-!
# The log and the ramdisk
-/

theorem log_steady (level : Level) (message : String) : Steady quiet P (log level message) :=
  steady_locked _ (steady_modify fun _ _ h => h.setLogger _ _)

theorem logAll_steady (logs : List Log) : Steady quiet P (logAll logs) :=
  Code.alike_forEach (fun _ => log_steady _ _) logs

theorem body_setLogger (display : Initrd.File -> Outcome String) (ram : Ram) (address : Nat)
    (files : List Initrd.File) (logger logger' : Logger) :
    (exists walk walk', Initrd.body display ram { address, files, logger := logger } = .ok walk ∧
      Initrd.body display ram { address, files, logger := logger' } = .ok walk' ∧
      walk.address = walk'.address ∧ walk.files = walk'.files) ∨
    exists p, Initrd.body display ram { address, files, logger := logger } = .error p ∧
      Initrd.body display ram { address, files, logger := logger' } = .error p := by
  simp only [Initrd.body_eq]
  cases Initrd.parseHeader ram address with
  | error p => exact Or.inr ⟨p, rfl, rfl⟩
  | ok header =>
      simp only [Outcome.ok_bind]
      cases display (Initrd.fileAt ram address header) with
      | error p => exact Or.inr ⟨p, rfl, rfl⟩
      | ok line => exact Or.inl ⟨_, _, rfl, rfl, rfl, rfl⟩

theorem walkRamdisk_steady (passes address : Nat) (files : List Initrd.File) :
    Steady quiet P (walkRamdisk env passes address files) := by
  induction passes generalizing address files with
  | zero => exact .cut
  | succ passes ih =>
      unfold walkRamdisk
      split
      · apply Code.alike_bind Code.alike_get
        intro k k' _
        apply Code.alike_bind (Code.alike_lift (body_setLogger
          (Initrd.File.display env.profile) env.ram address files
          k.logger k'.logger) : Code.Alike _ (fun walk walk' : Initrd.Walk =>
            walk.address = walk'.address ∧ walk.files = walk'.files) _ _)
        intro walk walk' hwalk
        rw [hwalk.1, hwalk.2]
        apply Code.alike_bind (Code.alike_locked (Code.alike_modify rfl fun _ _ h =>
          h.setLogger walk.logger walk'.logger) : Code.Alike _ Eq _ _)
        intro _ _ _
        exact ih walk'.address walk'.files
      · exact steady_pure _

theorem ramdisk_steady : Steady quiet P (ramdisk env) :=
  steady_force (fun _ _ h => h.initrd) (fun _ _ initrd h => h.setInitrd initrd)
    (steady_bind (steady_lift _) fun address => walkRamdisk_steady env.passes address [])

/-!
# The framebuffer
-/

theorem vgaStatic_steady : Steady quiet P (vgaStatic env) :=
  steady_force (fun _ _ h => h.vga) (fun _ _ vga h => h.setVga vga)
    (steady_bind ramdisk_steady fun _ => steady_bind (steady_lift _) fun _ => steady_lift _)

theorem drawing_steady (picture : Traced Pixel Vga) : Steady quiet P (drawing picture) :=
  steady_bind (steady_modify fun _ _ h => h.draw picture.emitted) fun _ =>
    steady_bind (steady_lift _) fun after => steady_modify fun _ _ h => h.setVga after

theorem clear_steady : Steady quiet P (clear env) :=
  steady_bind vgaStatic_steady fun vga => drawing_steady vga.clear

theorem write_steady (s : String) : Steady quiet P (write env s) :=
  steady_bind vgaStatic_steady fun _ => steady_bind ramdisk_steady fun _ => drawing_steady _

/-!
# The shells
-/

theorem newShell_steady : Steady quiet P (newShell env) :=
  steady_bind ramdisk_steady fun _ => steady_lift _

theorem newVgaShell_steady (x y : Nat) : Steady quiet P (newVgaShell env x y) :=
  steady_bind clear_steady fun _ => steady_bind vgaStatic_steady fun _ =>
    steady_bind (steady_modify fun _ _ h => h.setVga _) fun _ => newShell_steady

theorem vgaConsoleStatic_steady : Steady quiet P (vgaConsoleStatic env) :=
  steady_force (fun _ _ h => h.vgaConsole) (fun _ _ shell h => h.setVgaConsole shell)
    (steady_bind vgaStatic_steady fun _ => steady_locked _ (newVgaShell_steady _ _))

theorem serialStatic_steady : Steady quiet P (serialStatic env) := by
  apply steady_force (fun _ _ h => h.serial) (fun _ _ port h => h.setSerial port)
  split
  · exact steady_pure ()
  · exact .panic _

theorem displayVga_steady (shell : Shell) : Steady quiet P (displayVga env shell) :=
  steady_bind ramdisk_steady fun _ => steady_bind (steady_lift _) fun texts =>
    Code.alike_forEach write_steady texts

theorem displaySerial_steady (shell : Shell) : Steady quiet P (displaySerial env shell) :=
  steady_bind ramdisk_steady fun _ => steady_bind (steady_lift _) fun _ =>
    steady_modify fun _ _ h => h.transmit fun _ => rfl

theorem serialConsoleStatic_alike
    (hfresh : forall shell : Shell, shell.buffer = [] -> P (some shell)) :
    Code.Alike (SameState quiet P)
      (fun shell shell' => shell = shell' ∧ (quiet -> P (some shell)))
      (serialConsoleStatic env) (serialConsoleStatic env) := by
  apply Code.alike_force (fun _ _ h => h.serialConsole)
  · intro k k' shell h hshell hquiet
    rw [<- hshell]
    exact h.console hquiet
  · intro k k' shell h hshell
    exact h.setSerialConsole hshell
  · apply Code.alike_bind ramdisk_steady
    intro initrd _ heq
    subst heq
    exact Code.alike_lift_self fun shell hnew => ⟨rfl, fun _ => hfresh shell (new_buffer hnew)⟩

theorem serialConsoleStatic_steady
    (hfresh : forall shell : Shell, shell.buffer = [] -> P (some shell)) :
    Steady quiet P (serialConsoleStatic env) :=
  Code.alike_mono (serialConsoleStatic_alike hfresh) fun _ _ h => h.1

/-!
# The handlers
-/

theorem schedulerStatic_steady : Steady quiet P schedulerStatic :=
  steady_force (fun _ _ h => h.scheduler) (fun _ _ scheduler h => h.setScheduler scheduler)
    (steady_bind (logAll_steady _) fun _ => steady_pure _)

theorem endOfInterrupt_steady : Steady quiet P endOfInterrupt :=
  steady_locked _ (steady_pure ())

theorem timerHandler_steady : Steady quiet P timerHandler := by
  have htick : Steady quiet P tick :=
    steady_bind schedulerStatic_steady fun _ => steady_bind (steady_lift _) fun result =>
      steady_bind (logAll_steady result.2) fun _ =>
        steady_modify fun _ _ h => h.setScheduler result.1
  exact steady_bind (steady_modify fun _ _ h => h.increment) fun _ =>
    steady_bind schedulerStatic_steady fun _ => steady_bind (steady_locked _ htick) fun _ =>
      endOfInterrupt_steady

theorem keyboardHandler_steady (scanCode : Nat) :
    Steady quiet P (keyboardHandler env scanCode) := by
  refine steady_bind (steady_locked _ (steady_bind (log_steady _ _) fun _ => ?_)) fun _ =>
    endOfInterrupt_steady
  split
  · exact steady_bind vgaConsoleStatic_steady fun shell => steady_locked _
      (steady_bind vgaStatic_steady fun _ => steady_locked _ (displayVga_steady shell))
  · exact steady_pure ()

theorem guarded_steady (command : String) {body : Task Unit} (h : Steady quiet P body) :
    Steady quiet P (guarded command body) := by
  unfold guarded
  split
  · exact steady_bind schedulerStatic_steady fun _ => steady_locked _ h
  · exact steady_locked _ h
  · exact h

/-- The interrupt does not finish a line with the command for the log. -/
def Unasked (i : Interrupt) (console : Option Shell) : Prop :=
  forall byte shell, i = .serial byte -> console = some shell -> Serial.read byte = '\r' ->
    commandOf shell.buffer ≠ "logs"

theorem unasked_fresh (i : Interrupt) (shell : Shell) (h : shell.buffer = []) :
    Unasked i (some shell) := by
  intro byte other _ heq _
  rw [<- Option.some.inj heq, h]
  simp [commandOf]

theorem transmitText_alike {s s' : String} (h : quiet -> s = s') :
    Code.Alike (SameState quiet P) Eq (transmitText s) (transmitText s') :=
  Code.alike_modify rfl fun _ _ hsame => hsame.transmit fun hquiet => by rw [h hquiet]

def SameAnswer (command : String) (logger : Logger) (result result' : Console × String) : Prop :=
  result'.1 = result.1.setLogger logger ∧ (command ≠ "logs" -> result'.2 = result.2)

theorem runCommand_alike (initrd : Initrd) (console : Console) (logger : Logger)
    (command : String) (argument : Option String) :
    Code.Alike (SameState quiet P) (SameAnswer command logger)
      (runCommand env initrd console command argument)
      (runCommand env initrd (console.setLogger logger) command argument) := by
  have hexecute : Code.Alike (SameState quiet P) (SameAnswer command logger)
      (Code.lift (console.execute env.profile initrd command argument) : Task _)
      (Code.lift ((console.setLogger logger).execute env.profile initrd command argument)) := by
    apply Code.alike_lift
    rcases Console.execute_setLogger env.profile initrd console logger command argument with
      ⟨after, text, text', hexecute, hexecute', htext⟩ | ⟨p, hexecute, hexecute'⟩
    · exact Or.inl ⟨_, _, hexecute, hexecute', rfl, htext⟩
    · exact Or.inr ⟨p, hexecute, hexecute'⟩
  apply Code.alike_bind hexecute
  intro result result' hresult
  have hscheduler : result.1.scheduler = result'.1.scheduler := by
    rw [hresult.1]
    rfl
  have hmodify : Code.Alike (SameState quiet P) Eq
      (Code.modify fun k => k.setScheduler result.1.scheduler : Task Unit)
      (Code.modify fun k => k.setScheduler result'.1.scheduler) := by
    rw [hscheduler]
    exact steady_modify fun _ _ h => h.setScheduler _
  exact Code.alike_bind hmodify fun _ _ _ => Code.alike_pure hresult

def SameLine (byte : UInt8) (after after' : Console) : Prop :=
  after.shell = after'.shell ∧ (Serial.read byte = '\r' -> after.shell.buffer = [])

theorem interpretWith_alike (initrd : Initrd) (console : Console) (logger : Logger)
    (byte : UInt8)
    (h : quiet -> Serial.read byte = '\r' -> commandOf console.shell.buffer ≠ "logs") :
    Code.Alike (SameState quiet P) (SameLine byte)
      (console.interpretWith transmitText (runCommand env initrd) byte)
      ((console.setLogger logger).interpretWith transmitText (runCommand env initrd) byte) := by
  by_cases hreturn : Serial.read byte = '\r'
  · rw [Console.interpretWith_return _ _ hreturn, Console.interpretWith_return _ _ hreturn]
    apply Code.alike_bind (transmitText_alike fun _ => rfl)
    intro _ _ _
    apply Code.alike_bind (runCommand_alike initrd console logger _ _)
    intro result result' hresult
    have hshell : result'.1.shell = result.1.shell := by
      rw [hresult.1]
      rfl
    have htext : quiet -> result.2 = result'.2 := by
      intro hquiet
      have hcommand := h hquiet hreturn
      rw [<- inputOf_command] at hcommand
      exact (hresult.2 hcommand).symm
    apply Code.alike_bind (transmitText_alike htext)
    intro _ _ _
    apply Code.alike_bind (transmitText_alike fun _ => by rw [hshell])
    intro _ _ _
    refine Code.alike_pure ⟨?_, fun _ => rfl⟩
    rw [hresult.1]
    rfl
  · rw [Console.interpretWith_edit _ _ hreturn, Console.interpretWith_edit _ _ hreturn]
    have hecho : (console.setLogger logger).echo (Serial.read byte) =
        console.echo (Serial.read byte) := rfl
    rw [hecho]
    cases console.echo (Serial.read byte) with
    | none => exact Code.alike_pure ⟨rfl, fun h => absurd h hreturn⟩
    | some text =>
        apply Code.alike_bind (transmitText_alike fun _ => rfl)
        intro _ _ _
        exact Code.alike_pure ⟨rfl, fun h => absurd h hreturn⟩

theorem feed_steady (initrd : Initrd) {shell : Shell} (scheduler : Scheduler) (byte : UInt8)
    (hshell : quiet -> Unasked (.serial byte) (some shell)) :
    Steady quiet (Unasked (.serial byte)) (feed env initrd shell scheduler byte) := by
  apply Code.alike_bind Code.alike_get
  intro k k' hsame
  let console : Console :=
    { shell := shell, scheduler := scheduler, logger := k.logger, elapsed := k.elapsed }
  let console' : Console :=
    { shell := shell, scheduler := scheduler, logger := k'.logger, elapsed := k'.elapsed }
  have hconsole : console' = console.setLogger k'.logger := by
    simp only [console', <- hsame.elapsed]
    rfl
  change Code.Alike _ Eq (console.interpretWith transmitText (runCommand env initrd) byte >>= _)
    (console'.interpretWith transmitText (runCommand env initrd) byte >>= _)
  rw [hconsole]
  apply Code.alike_bind (interpretWith_alike initrd console k'.logger byte fun hquiet hreturn =>
    hshell hquiet byte shell rfl rfl hreturn)
  intro after after' hafter
  rcases hafter with ⟨hline, hempty⟩
  rw [<- hline]
  apply steady_modify
  intro m m' hm
  apply hm.setSerialConsole
  intro _ other shell' heq hsome hread
  cases heq
  exact unasked_fresh (.serial byte) after.shell (hempty hread) byte shell' rfl hsome hread

theorem serialHandler_steady (byte : UInt8) :
    Steady quiet (Unasked (.serial byte)) (serialHandler env byte) := by
  have hfresh := unasked_fresh (.serial byte)
  have hinterpret : Steady quiet (Unasked (.serial byte)) (interpret env byte) := by
    apply Code.alike_bind (serialConsoleStatic_alike hfresh)
    intro shell _ hshell
    rcases hshell with ⟨rfl, hshell⟩
    exact steady_bind schedulerStatic_steady fun scheduler => steady_bind ramdisk_steady
      fun initrd => guarded_steady _ (feed_steady initrd scheduler byte hshell)
  exact steady_bind (serialConsoleStatic_steady hfresh) fun _ => steady_bind
    (steady_locked _ (steady_bind serialStatic_steady fun _ => steady_locked _ hinterpret))
    fun _ => endOfInterrupt_steady

theorem handler_steady (i : Interrupt) : Steady quiet (Unasked i) (handler env i) := by
  cases i with
  | timer => exact timerHandler_steady
  | keyboard scanCode => exact keyboardHandler_steady scanCode
  | serial byte => exact serialHandler_steady byte

/-!
# The boot sequence
-/

theorem boot_steady : Steady quiet (fun _ => True) (boot env) := by
  have hsmp : Steady quiet (fun _ => True) (initializeSmp env) :=
    steady_bind (steady_lift _) fun _ => log_steady _ _
  have hinitrd : Steady quiet (fun _ => True) (initializeInitrd env) :=
    steady_bind ramdisk_steady fun _ => log_steady _ _
  have hscheduler : Steady quiet (fun _ => True) initializeScheduler :=
    steady_bind schedulerStatic_steady fun _ => steady_locked _
      (steady_bind schedulerStatic_steady fun _ => steady_modify fun _ _ h => h.setScheduler _)
  have hintro : Steady quiet (fun _ => True) (initializeIntro env) :=
    steady_bind vgaStatic_steady fun _ => steady_locked _
      (steady_bind vgaStatic_steady fun _ => steady_bind ramdisk_steady fun _ =>
        drawing_steady _)
  have hconsole : Steady quiet (fun _ => True) (serialConsoleStatic env) :=
    serialConsoleStatic_steady fun _ _ => trivial
  have hshell : Steady quiet (fun _ => True) (initializeShell env) :=
    steady_bind hconsole fun _ => steady_locked _ (steady_bind hconsole fun shell =>
      steady_bind serialStatic_steady fun _ => steady_locked _ (displaySerial_steady shell))
  exact steady_bind (steady_lift _) fun _ => steady_bind (steady_locked _ (steady_pure ()))
    fun _ => steady_bind hsmp fun _ => steady_bind hinitrd fun _ => steady_bind hscheduler
    fun _ => steady_bind hintro fun _ => steady_bind hshell fun _ =>
    steady_bind (steady_lift _) fun _ => log_steady _ _

end Steady

end Kernel

end NeurOS
