import NeurOS.Foundation.Exceptions
import NeurOS.Kernel.Lockstep
import NeurOS.Kernel.Waiting

/-!
# Exceptions of the processor

The handlers of the exceptions log one record each, and two of them halt.  An
exception that strikes while the log is taken hangs the kernel.  Up to a panic,
exceptions change nothing but the log and what is printed of it, wherever they
strike.  An exception strikes between two steps of the code, where no memory of the
heap is being handed out.
-/

namespace NeurOS

open Foundation

/-- The exceptions that the table has handlers for, with the text of the stack frame and the error
code. -/
inductive Exception where
  | divideError (frame : String)
  | debug (frame : String)
  | nonMaskableInterrupt (frame : String)
  | breakpoint (frame : String)
  | overflow (frame : String)
  | boundRangeExceeded (frame : String)
  | invalidOpcode (frame : String)
  | deviceNotAvailable (frame : String)
  | doubleFault (frame : String) (code : Nat)
  | invalidTss (frame : String) (code : Nat)
  | segmentNotPresent (frame : String) (code : Nat)
  | stackSegmentFault (frame : String) (code : Nat)
  | generalProtectionFault (frame : String) (code : Nat)
  | pageFault (frame : String) (code : Nat)
  | x87FloatingPoint (frame : String)
  | alignmentCheck (frame : String) (code : Nat)
  | machineCheck (frame : String)
  | simdFloatingPoint (frame : String)
  | virtualization (frame : String)
  | cpProtectionException (frame : String) (code : Nat)
  | hvInjectionException (frame : String)
  | vmmCommunicationException (frame : String) (code : Nat)
  | securityException (frame : String) (code : Nat)
  deriving DecidableEq, Repr

namespace Exception

/-!
# The handlers

Each logs one record, put together ahead of the lock.
-/

def thrown (level : Level) (name frame : String) : Log where
  level := level
  message := s!"{name} was thrown: {frame}"

def thrownWith (name frame : String) (code : Nat) : Log where
  level := .error
  message := s!"{name} was thrown (code 0x{Elf.hex code}): {frame}"

def divideErrorHandler (frame : String) : Log :=
  thrown .error "Division error" frame

def debugHandler (frame : String) : Log :=
  thrown .debug "Debug exception" frame

def nmiHandler (frame : String) : Log :=
  thrown .error "Non-Maskable Interrupt (NMI)" frame

def breakpointHandler (frame : String) : Log :=
  thrown .warn "Breakpoint exception" frame

def overflowHandler (frame : String) : Log :=
  thrown .error "Overflow exception" frame

def boundRangeHandler (frame : String) : Log :=
  thrown .error "Bound range exceeded exception" frame

def invalidOpcodeHandler (frame : String) : Log :=
  thrown .error "Invalid opcode exception" frame

def deviceNotAvailableHandler (frame : String) : Log :=
  thrown .error "Device not available exception" frame

def doubleFaultHandler (frame : String) (code : Nat) : Log :=
  thrownWith "Double fault" frame code

def invalidTssHandler (frame : String) (code : Nat) : Log :=
  thrownWith "Invalid TSS exception" frame code

def segmentNotPresentHandler (frame : String) (code : Nat) : Log :=
  thrownWith "Segment not present exception" frame code

def stackSegmentFaultHandler (frame : String) (code : Nat) : Log :=
  thrownWith "Stack segment fault" frame code

def generalProtectionFaultHandler (frame : String) (code : Nat) : Log :=
  thrownWith "General protection fault" frame code

def pageFaultHandler (frame : String) (code : Nat) : Log :=
  thrownWith "Page fault" frame code

def x87FloatingPointHandler (frame : String) : Log :=
  thrown .error "x87 floating point exception" frame

def alignmentCheckHandler (frame : String) (code : Nat) : Log :=
  thrownWith "Alignment check exception" frame code

def machineCheckHandler (frame : String) : Log :=
  thrown .error "Machine check exception" frame

def simdFloatingPointHandler (frame : String) : Log :=
  thrown .error "SIMD floating point exception" frame

def virtualizationHandler (frame : String) : Log :=
  thrown .error "Virtualization exception" frame

def controlProtectionHandler (frame : String) (code : Nat) : Log :=
  thrownWith "Control protection exception" frame code

def hypervisorInjectionHandler (frame : String) : Log :=
  thrown .error "Hypervisor injection exception" frame

def vmmCommunicationHandler (frame : String) (code : Nat) : Log :=
  thrownWith "VMM communication exception" frame code

def securityHandler (frame : String) (code : Nat) : Log :=
  thrownWith "Security exception" frame code

def record : Exception -> Log
  | divideError frame => divideErrorHandler frame
  | debug frame => debugHandler frame
  | nonMaskableInterrupt frame => nmiHandler frame
  | breakpoint frame => breakpointHandler frame
  | overflow frame => overflowHandler frame
  | boundRangeExceeded frame => boundRangeHandler frame
  | invalidOpcode frame => invalidOpcodeHandler frame
  | deviceNotAvailable frame => deviceNotAvailableHandler frame
  | doubleFault frame code => doubleFaultHandler frame code
  | invalidTss frame code => invalidTssHandler frame code
  | segmentNotPresent frame code => segmentNotPresentHandler frame code
  | stackSegmentFault frame code => stackSegmentFaultHandler frame code
  | generalProtectionFault frame code => generalProtectionFaultHandler frame code
  | pageFault frame code => pageFaultHandler frame code
  | x87FloatingPoint frame => x87FloatingPointHandler frame
  | alignmentCheck frame code => alignmentCheckHandler frame code
  | machineCheck frame => machineCheckHandler frame
  | simdFloatingPoint frame => simdFloatingPointHandler frame
  | virtualization frame => virtualizationHandler frame
  | cpProtectionException frame code => controlProtectionHandler frame code
  | hvInjectionException frame => hypervisorInjectionHandler frame
  | vmmCommunicationException frame code => vmmCommunicationHandler frame code
  | securityException frame code => securityHandler frame code

def resumes : Exception -> Bool
  | doubleFault _ _ => false
  | machineCheck _ => false
  | _ => true

end Exception

namespace Kernel

def exceptionHandler (e : Exception) : Task Unit :=
  log e.record.level e.record.message

def exceptions : Exceptions Lock Kernel Exception where
  handler := exceptionHandler
  resumes := Exception.resumes

def recorded (self : Kernel) (record : Log) : Kernel :=
  self.setLogger (self.logger.log record.level record.message)

theorem exceptionHandler_eq (e : Exception) :
    exceptions.handler e = Code.locked .logger (Code.modify fun k => k.recorded e.record) := rfl

/-- An exception that strikes while the log is taken is never logged: whatever strikes next, its
handler stays where it is, and nothing changes any more. -/
theorem struck_while_logging_hangs (env : Environment)
    (accepts : Event Interrupt -> Kernel -> Prop) (e : Exception) (k : Kernel)
    (traps : List (Trap Lock Kernel Exception)) (frames : List (Frame Lock Kernel))
    (htaken : .logger ∈ Trapped.taken ⟨k, traps, frames⟩)
    (system : Trapped Lock Kernel Exception)
    (h : (processor env).TrapReaches exceptions accepts
      ⟨k, ⟨e, exceptionHandler e, []⟩ :: traps, frames⟩ system) :
    system.data = k ∧ system.frames = frames ∧
      exists more, system.traps = more ++ ⟨e, exceptionHandler e, []⟩ :: traps := by
  have hstart : forall e, exists rest, exceptions.handler e = .acquire .logger rest :=
    fun e => ⟨_, rfl⟩
  exact (Processor.stuck_reaches hstart (Trapped.stuck_of_taken htaken rfl) h).2

theorem struck_while_logging_hangs_sample : exists frames,
    (processor whole).Reaches (fun _ _ => True) (started whole) ⟨fresh, frames⟩ ∧
      forall system, (processor whole).TrapReaches exceptions (fun _ _ => True)
          ⟨fresh, [⟨.breakpoint "", exceptionHandler (.breakpoint ""), []⟩], frames⟩ system ->
        system.data = fresh ∧ system.frames = frames ∧
          exists more, system.traps =
            more ++ [⟨.breakpoint "", exceptionHandler (.breakpoint ""), []⟩] := by
  have hboot : exists rest, boot whole =
      .acquire .pics (.release .pics (.acquire .logger rest)) := ⟨_, rfl⟩
  rcases hboot with ⟨rest, hboot⟩
  refine ⟨[⟨rest, [.logger]⟩], ?_, ?_⟩
  · unfold started
    rw [hboot]
    exact .head (.acquire List.not_mem_nil List.not_mem_nil)
      (.head .release (.single (.acquire List.not_mem_nil List.not_mem_nil)))
  · exact struck_while_logging_hangs whole (fun _ _ => True) (.breakpoint "") fresh []
      [⟨rest, [.logger]⟩] (by simp [Trapped.taken, heldBy])

/-!
# Exceptions at any time
-/

/-- Runs up to a panic.  In a quiet one the command for the log is never given. -/
def Accepted (quiet : Prop) : Event Interrupt -> Kernel -> Prop
  | .interrupt i, k => quiet -> Unasked i k.serialConsole
  | .panic _, _ => False

theorem recorded_same {quiet : Prop} {P : Option Shell -> Prop} {k k' : Kernel}
    (h : SameState quiet P k k') (record : Log) : SameState quiet P (k.recorded record) k' :=
  { h with }

theorem kernel_lockstep (env : Environment) (quiet : Prop) :
    Processor.Lockstep (processor env) exceptions (Accepted quiet)
      (SameState quiet fun _ => True) (fun i => SameState quiet (Unasked i)) where
  weaken i k k' h := { h with console := fun _ => trivial }
  enter i k k' h haccepts := by
    refine ⟨?_, { h with console := haccepts }⟩
    intro hquiet
    rw [<- h.serialConsole]
    exact haccepts hquiet
  handler i := handler_steady i
  noPanic p k h := h
  quiet e k' := Processor.quiet_locked fun k h => recorded_same h e.record
  quietDuring e i k' := Processor.quiet_locked fun k h => recorded_same h e.record

/-- Up to a panic, a run that exceptions strike at any time and in any number is a run without
them, but for the log and for what the command for the log prints. -/
theorem exceptions_unnoticed (quiet : Prop) {env : Environment}
    {system : Trapped Lock Kernel Exception}
    (h : (processor env).TrapReaches exceptions (Accepted quiet)
      ⟨fresh, [], [⟨boot env, []⟩]⟩ system) :
    exists plain, (processor env).Reaches (Accepted quiet) (started env) plain ∧
      SameState quiet (fun _ => True) system.data plain.data ∧
      heldBy system.frames = heldBy plain.frames ∧
      (forall held, system.frames = [⟨.done (), held⟩] -> plain.frames = [⟨.done (), held⟩]) := by
  have hstart : SameState quiet (fun _ => True) fresh fresh := by
    constructor <;> intros <;> trivial
  have hmatches : Processor.Matches (SameState quiet fun _ => True)
      (fun i => SameState quiet (Unasked i)) (SameState quiet fun _ => True)
      (⟨fresh, [], [⟨boot env, []⟩]⟩ : Trapped Lock Kernel Exception) (started env) :=
    { relation := Or.inl rfl
      data := hstart
      frames := .cons ⟨boot_steady, rfl⟩ .nil
      traps := fun _ hmem => nomatch hmem }
  rcases Processor.trapReaches_matches (kernel_lockstep env quiet) hmatches h with
    ⟨Q, plain, hplain, hend⟩
  refine ⟨plain, hplain, Processor.related_of_matches (kernel_lockstep env quiet) hend,
    Processor.heldBy_alike hend.frames, ?_⟩
  intro held hidle
  have hframes := hend.frames
  rw [hidle] at hframes
  rcases Processor.frames_cons hframes with ⟨code', below', hplain', hcode, hbelow⟩
  cases hcode
  cases hbelow
  exact hplain'

def timerRest : Task Unit := do
  let _ ← schedulerStatic
  Code.locked .scheduler tick
  endOfInterrupt

/-- Where an exception strikes the handler of another one, which struck the timer handler of a
kernel that has booted. -/
def nested (startup : Startup whole) (outer inner : Exception) : Trapped Lock Kernel Exception where
  data := startup.booted.increment
  traps := [⟨inner, exceptionHandler inner, []⟩, ⟨outer, exceptionHandler outer, []⟩]
  frames := [⟨timerRest, []⟩, ⟨.done (), []⟩]

theorem nested_reached (startup : Startup whole) (outer inner : Exception) :
    (processor whole).TrapReaches exceptions (Accepted True)
      ⟨fresh, [], [⟨boot whole, []⟩]⟩ (nested startup outer inner) := by
  have hbooted : (processor whole).Reaches (Accepted True) (started whole)
      ⟨startup.booted, [⟨.done (), []⟩]⟩ :=
    Processor.reaches_of_served ⟨[], startup.booted, run_boot startup, .nothing⟩
  have haccepts : Accepted True (.interrupt .timer) startup.booted :=
    fun _ byte _ hbyte => nomatch hbyte
  have htimer : (processor whole).Reaches (Accepted True)
      ⟨startup.booted, [⟨.done (), []⟩]⟩
      ⟨startup.booted.increment, [⟨timerRest, []⟩, ⟨.done (), []⟩]⟩ :=
    .head (.interrupted haccepts) (.head .read (.single .write))
  exact ((Processor.trapReaches_of_reaches (hbooted.trans htimer)).tail (.strikes outer)).tail
    (.strikes inner)

theorem nested_resumed (startup : Startup whole) {outer inner : Exception}
    (houter : outer.resumes = true) (hinner : inner.resumes = true) :
    exists k, (processor whole).TrapReaches exceptions (Accepted True)
      (nested startup outer inner) ⟨k, [], [⟨.done (), []⟩]⟩ := by
  let struck := (startup.booted.recorded inner.record).recorded outer.record
  have hmade : Made startup.initrd struck := { made_booted startup with }
  rcases run_timerHandler hmade with ⟨k, hrun, _⟩
  change timerRest.run [] [] struck.increment = .done () [] k at hrun
  have hfree : forall traps : List (Trap Lock Kernel Exception),
      traps.flatMap Trap.held = [] -> forall s, Not (Lock.logger ∈ Trapped.taken
        ⟨s, traps, [⟨timerRest, []⟩, ⟨.done (), []⟩]⟩) := by
    intro traps htraps s
    simp [Trapped.taken, heldBy, htraps]
  have hboth : (processor whole).TrapReaches exceptions (Accepted True)
      (nested startup outer inner)
      ⟨struck.increment, [], [⟨timerRest, []⟩, ⟨.done (), []⟩]⟩ :=
    (Processor.reaches_resumed (exceptionHandler_eq inner) (hfree _ rfl _) hinner).trans
      (Processor.reaches_resumed (exceptionHandler_eq outer) (hfree _ rfl _) houter)
  have harrives : (processor whole).Arrives (Accepted True) [⟨.done (), []⟩]
      ⟨struck.increment, [⟨timerRest, []⟩, ⟨.done (), []⟩]⟩
      (timerRest.run [] [] struck.increment) := Processor.arrives rfl timerRest [] _
  rw [hrun] at harrives
  exact ⟨k, hboth.trans (Processor.trapReaches_of_reaches (harrives.tail .returns))⟩

theorem exceptions_unnoticed_sample : exists (startup : Startup whole) (k : Kernel) (plain : _),
    (processor whole).TrapReaches exceptions (Accepted True) ⟨fresh, [], [⟨boot whole, []⟩]⟩
      (nested startup (.breakpoint "") (.overflow "")) ∧
    (processor whole).TrapReaches exceptions (Accepted True)
      (nested startup (.breakpoint "") (.overflow "")) ⟨k, [], [⟨.done (), []⟩]⟩ ∧
    (processor whole).Reaches (Accepted True) (started whole) plain ∧
    SameState True (fun _ => True) k plain.data ∧ plain.frames = [⟨.done (), []⟩] := by
  rcases whole_startup with ⟨startup, _⟩
  have hreached := nested_reached startup (.breakpoint "") (.overflow "")
  rcases @nested_resumed startup (.breakpoint "") (.overflow "") rfl rfl with ⟨k, hresumed⟩
  rcases exceptions_unnoticed True (hreached.trans hresumed) with ⟨plain, hplain, hsame, _, hidle⟩
  exact ⟨startup, k, plain, hreached, hresumed, hplain, hsame, hidle [] rfl⟩

end Kernel

end NeurOS
