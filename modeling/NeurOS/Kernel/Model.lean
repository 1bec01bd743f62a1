import NeurOS.Foundation.Locks
import NeurOS.Initrd.Listing
import NeurOS.Shell.Model
import NeurOS.Vga.Intro

/-!
# The kernel and its locks

The statics of the kernel, each behind a lock, and the code that boots the kernel,
handles its interrupts and shows a panic.  The first use of a static makes it, and a
use of it on the way waits for that use to end, as for a lock.

What is drawn and what is decoded comes from the models of these parts; the code
here adds which locks are taken around it, and in which order.
-/

namespace NeurOS

open Foundation

/-- The statics that their first use makes by code that panics or takes locks. -/
inductive Static where
  | initrd
  | scheduler
  | serial
  | serialConsole
  | vga
  | vgaConsole
  deriving DecidableEq, Repr

/-- The mutexes, and the first uses of the statics. -/
inductive Lock where
  | logger
  | scheduler
  | keyboard
  | serial
  | serialConsole
  | vga
  | vgaConsole
  | pics
  | first (static : Static)
  deriving DecidableEq, Repr

/-- The statics, once they are made, with what the serial port has transmitted and the pixels
that were drawn on the framebuffer. -/
structure Kernel where
  initrd : Option Initrd
  scheduler : Option Scheduler
  serial : Option Unit
  serialConsole : Option Shell
  vga : Option Vga
  vgaConsole : Option Shell
  logger : Logger
  elapsed : Nat
  transmitted : List UInt8
  drawn : List Pixel

structure Framebuffer where
  height : Nat
  pitch : Nat
  width : Nat

/-- What the kernel finds: the answers of the boot loader and of the hardware, and the texts
of the build and of a panic.  The walk over the ramdisk is followed for a number of passes. -/
structure Environment where
  profile : Profile
  build : Build
  memory : Outcome Unit
  cpus : Option Nat
  framebuffers : Option (List Framebuffer)
  modules : Option (List Nat)
  ram : Ram
  passes : Nat
  loopback : UInt8
  star : Outcome Unit
  info : Panic -> String

abbrev Task := Code Lock Kernel

inductive Interrupt where
  | timer
  | keyboard (scanCode : Nat)
  | serial (byte : UInt8)
  deriving DecidableEq, Repr

namespace Kernel

def fresh : Kernel where
  initrd := none
  scheduler := none
  serial := none
  serialConsole := none
  vga := none
  vgaConsole := none
  logger := Logger.new
  elapsed := 0
  transmitted := []
  drawn := []

def setLogger (self : Kernel) (logger : Logger) : Kernel :=
  { self with logger := logger }

def setInitrd (self : Kernel) (initrd : Initrd) : Kernel :=
  { self with initrd := some initrd }

def setScheduler (self : Kernel) (scheduler : Scheduler) : Kernel :=
  { self with scheduler := some scheduler }

def setSerial (self : Kernel) (port : Unit) : Kernel :=
  { self with serial := some port }

def setSerialConsole (self : Kernel) (shell : Shell) : Kernel :=
  { self with serialConsole := some shell }

def setVga (self : Kernel) (vga : Vga) : Kernel :=
  { self with vga := some vga }

def draw (self : Kernel) (pixels : List Pixel) : Kernel :=
  { self with drawn := self.drawn ++ pixels }

def present (self : Kernel) (vga : Vga) (pixels : List Pixel) : Kernel :=
  (self.draw pixels).setVga vga

def setVgaConsole (self : Kernel) (shell : Shell) : Kernel :=
  { self with vgaConsole := some shell }

def transmit (self : Kernel) (bytes : List UInt8) : Kernel :=
  { self with transmitted := self.transmitted ++ bytes }

@[simp] theorem setLogger_initrd (self : Kernel) (logger : Logger) :
    (self.setLogger logger).initrd = self.initrd := rfl

@[simp] theorem present_initrd (self : Kernel) (vga : Vga) (pixels : List Pixel) :
    (self.present vga pixels).initrd = self.initrd := rfl

/-!
# The log
-/

/-- The message is put together ahead of the lock. -/
def log (level : Level) (message : String) : Task Unit :=
  Code.locked .logger (Code.modify fun k => k.setLogger (k.logger.log level message))

def logAll (logs : List Log) : Task Unit :=
  Code.forEach (fun record => log record.level record.message) logs

/-!
# The ramdisk
-/

/-- The loop over the headers, with the log taken for one record at a time. -/
def walkRamdisk (env : Environment) : Nat -> Nat -> List Initrd.File -> Task Initrd
  | 0, _, _ => .cut
  | passes + 1, address, files =>
      if Initrd.parseBlock env.ram address blockSize ≠ eofBlock then do
        let k ← Code.get
        let walk ← Code.lift
          (Initrd.body (Initrd.File.display env.profile) env.ram
            { address, files, logger := k.logger })
        Code.locked .logger (Code.modify fun k => k.setLogger walk.logger)
        walkRamdisk env passes walk.address walk.files
      else
        pure { files }

def ramdisk (env : Environment) : Task Initrd :=
  Code.force (.first .initrd) Kernel.initrd setInitrd do
    let address ← Code.lift (Initrd.firstModule env.modules)
    walkRamdisk env env.passes address []

/-!
# The framebuffer
-/

def newVga (env : Environment) (font : Font) : Outcome Vga :=
  match env.framebuffers with
  | none => .error (.raised "Failed to initialize VGA module.")
  | some framebuffers => do
      let framebuffer ← Outcome.unwrap framebuffers.head?
      .ok
        { cursor := { x := 0, y := 0, fg := Color.white, bg := Color.black }
          font := font
          height := framebuffer.height
          pitch := framebuffer.pitch
          width := framebuffer.width }

def vgaStatic (env : Environment) : Task Vga :=
  Code.force (.first .vga) Kernel.vga setVga do
    let initrd ← ramdisk env
    let font ← Code.lift (Font.new initrd Font.normalPath)
    Code.lift (newVga env font)

/-- The pixels ahead of a panic stay on the framebuffer. -/
def drawing (picture : Traced Pixel Vga) : Task Unit := do
  Code.modify fun k => k.draw picture.emitted
  let after ← Code.lift picture.result
  Code.modify fun k => k.setVga after

def clear (env : Environment) : Task Unit := do
  let vga ← vgaStatic env
  drawing vga.clear

def write (env : Environment) (s : String) : Task Unit := do
  let vga ← vgaStatic env
  let initrd ← ramdisk env
  drawing (vga.writeStr env.profile initrd s)

/-!
# The shells
-/

def newShell (env : Environment) : Task Shell := do
  let initrd ← ramdisk env
  Code.lift (Shell.new initrd)

def serialConsoleStatic (env : Environment) : Task Shell :=
  Code.force (.first .serialConsole) Kernel.serialConsole setSerialConsole (newShell env)

def newVgaShell (env : Environment) (x y : Nat) : Task Shell := do
  clear env
  let vga ← vgaStatic env
  Code.modify fun k => k.setVga (vga.setCursor x y Color.white Color.black)
  newShell env

def vgaConsoleStatic (env : Environment) : Task Shell :=
  Code.force (.first .vgaConsole) Kernel.vgaConsole setVgaConsole do
    let vga ← vgaStatic env
    let x := vga.font.getWidth
    let y := vga.font.getHeight + x
    Code.locked .vga (newVgaShell env x y)

/-- The self-test of the port sends a byte to itself. -/
def serialStatic (env : Environment) : Task Unit :=
  Code.force (.first .serial) Kernel.serial setSerial
    (if env.loopback = 0xAE then pure () else .panic .assertionFailed)

def displayVga (env : Environment) (shell : Shell) : Task Unit := do
  let initrd ← ramdisk env
  let texts ← Code.lift (shell.display initrd)
  Code.forEach (write env) texts

def displaySerial (env : Environment) (shell : Shell) : Task Unit := do
  let initrd ← ramdisk env
  let texts ← Code.lift (shell.display initrd)
  Code.modify fun k => k.transmit (texts.flatMap Serial.writeStr)

/-!
# Interrupts
-/

def schedulerStatic : Task Scheduler :=
  Code.force (.first .scheduler) Kernel.scheduler setScheduler do
    let (scheduler, logs) := Scheduler.new 100
    logAll logs
    pure scheduler

def endOfInterrupt : Task Unit :=
  Code.locked .pics (pure ())

def increment (self : Kernel) : Kernel :=
  { self with elapsed := (self.elapsed + 1) % 2 ^ 32 }

def tick : Task Unit := do
  let scheduler ← schedulerStatic
  let (after, logs) ← Code.lift scheduler.tick
  logAll logs
  Code.modify fun k => k.setScheduler after

def timerHandler : Task Unit := do
  Code.modify increment
  let _ ← schedulerStatic
  Code.locked .scheduler tick
  endOfInterrupt

def keyboardHandler (env : Environment) (scanCode : Nat) : Task Unit := do
  Code.locked .keyboard do
    log .trace s!"Received scan code (0x{Elf.hex scanCode}) from keyboard."
    if scanCode = Screen.enter then do
      let shell ← vgaConsoleStatic env
      Code.locked .vgaConsole do
        let _ ← vgaStatic env
        Code.locked .vga (displayVga env shell)
    else
      pure ()
  endOfInterrupt

/-- The commands that take a lock of their own while they run. -/
def guarded (command : String) (body : Task Unit) : Task Unit :=
  match command with
  | "fork" => do
      let _ ← schedulerStatic
      Code.locked .scheduler body
  | "logs" => Code.locked .logger body
  | _ => body

def transmitText (s : String) : Task PUnit :=
  Code.modify fun k => k.transmit (Serial.writeStr s)

def runCommand (env : Environment) (initrd : Initrd) (console : Console) (command : String)
    (argument : Option String) : Task (Console × String) := do
  let (after, text) ← Code.lift (console.execute env.profile initrd command argument)
  Code.modify fun k => k.setScheduler after.scheduler
  pure (after, text)

def feed (env : Environment) (initrd : Initrd) (shell : Shell) (scheduler : Scheduler)
    (byte : UInt8) : Task Unit := do
  let k ← Code.get
  let console : Console :=
    { shell := shell, scheduler := scheduler, logger := k.logger, elapsed := k.elapsed }
  let after ← console.interpretWith transmitText (runCommand env initrd) byte
  Code.modify fun k => k.setSerialConsole after.shell

def interpret (env : Environment) (byte : UInt8) : Task Unit := do
  let shell ← serialConsoleStatic env
  let scheduler ← schedulerStatic
  let initrd ← ramdisk env
  let command :=
    if Serial.read byte = '\r' then
      (Console.parseLine (String.ofList shell.buffer)).1
    else
      ""
  guarded command (feed env initrd shell scheduler byte)

def serialHandler (env : Environment) (byte : UInt8) : Task Unit := do
  let _ ← serialConsoleStatic env
  Code.locked .serialConsole do
    serialStatic env
    Code.locked .serial (interpret env byte)
  endOfInterrupt

def handler (env : Environment) : Interrupt -> Task Unit
  | .timer => timerHandler
  | .keyboard scanCode => keyboardHandler env scanCode
  | .serial byte => serialHandler env byte

/-!
# Panics
-/

def panicTitle : String :=
  Ansi.bold ++ Ansi.red ++ "[KERNEL PANIC]" ++ Ansi.normal ++ "\n" ++ "\n"

def panicLog (env : Environment) (p : Panic) : Log where
  level := .fatal
  message := "The kernel has panicked.\n" ++ env.info p

def showPanic (env : Environment) (p : Panic) : Task Unit := do
  clear env
  write env panicTitle
  log (panicLog env p).level (panicLog env p).message
  Code.locked .logger do
    let k ← Code.get
    Code.forEach (fun record => write env (record.fmt ++ "\n")) k.logger.getLogs

/-- The framebuffer stays taken: the processor halts. -/
def panicHandler (env : Environment) (p : Panic) : Task Unit := do
  let _ ← vgaStatic env
  .acquire .vga (.done ())
  showPanic env p

/-!
# The boot sequence
-/

def initializeSmp (env : Environment) : Task Unit := do
  let count ← Code.lift (Outcome.unwrap env.cpus)
  log .debug s!"Detected that the processor has {count} core(s)."

def initializeInitrd (env : Environment) : Task Unit := do
  let initrd ← ramdisk env
  log .debug s!"Loaded {initrd.getFiles.length} files from the initial ramdisk."

def initializeScheduler : Task Unit := do
  let _ ← schedulerStatic
  Code.locked .scheduler do
    let scheduler ← schedulerStatic
    Code.modify fun k => k.setScheduler (scheduler.add (Process.new 1 "kernel" .running))

def initializeIntro (env : Environment) : Task Unit := do
  let _ ← vgaStatic env
  Code.locked .vga do
    let vga ← vgaStatic env
    let initrd ← ramdisk env
    drawing (Intro.initializeScreen env.profile initrd env.build vga)

def initializeShell (env : Environment) : Task Unit := do
  let _ ← serialConsoleStatic env
  Code.locked .serialConsole do
    let shell ← serialConsoleStatic env
    serialStatic env
    Code.locked .serial (displaySerial env shell)

/-- The code ends where the processor is idle and interrupts are enabled. -/
def boot (env : Environment) : Task Unit := do
  Code.lift env.memory
  Code.locked .pics (pure ())
  initializeSmp env
  initializeInitrd env
  initializeScheduler
  initializeIntro env
  initializeShell env
  Code.lift env.star
  log .info "The operating system has been successfully initialized."

def processor (env : Environment) : Processor Lock Kernel Interrupt where
  handler := handler env
  onPanic := panicHandler env

def started (env : Environment) : System Lock Kernel where
  data := fresh
  frames := [{ code := boot env, held := [] }]

end Kernel

end NeurOS
