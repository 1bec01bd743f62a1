import NeurOS.Elf.Model
import NeurOS.Scheduler.Model
import NeurOS.Serial

/-!
# The shell

The shell keeps the line that is being typed.  A carriage return dispatches the
line as a command; the serial console is the shell together with the parts of the
kernel that its commands reach.
-/

namespace NeurOS

open Foundation

structure Shell where
  buffer : List Char
  group : String
  groupId : Nat
  prompt : String
  userId : Nat
  username : String
  workingDirectory : String
  deriving DecidableEq, Repr

namespace Shell

def readText (initrd : Initrd) (path : String) : Outcome String := do
  let data ← initrd.getData path
  match Text.fromUtf8 data with
  | none => .error .unwrapErr
  | some s => .ok s

def parseId (s : String) : Outcome Nat :=
  match Text.fromStrRadix 32 10 s with
  | none => .error .unwrapErr
  | some n => .ok n

def promptFor (username hostname : String) : String :=
  Ansi.bold ++ Ansi.default ++ "[" ++ Ansi.green ++ username ++ "@" ++ hostname ++ " " ++
    Ansi.blue ++ "~" ++ Ansi.default ++ "]# "

/-- The fields of the first line of each file: the items 0, 2, 3 and 5 of the user
database, and the item 0 of the group database. -/
def new (initrd : Initrd) : Outcome Shell := do
  let hostname ← readText initrd "initrd/etc/hostname"
  let passwd ← readText initrd "initrd/etc/passwd"
  let fields := Text.splitTerminator ':' passwd
  let username ← Outcome.unwrap fields[0]?
  let userField ← Outcome.unwrap fields[2]?
  let userId ← parseId userField
  let groupField ← Outcome.unwrap fields[3]?
  let groupId ← parseId groupField
  let home ← Outcome.unwrap fields[5]?
  let groups ← readText initrd "initrd/etc/group"
  let group ← Outcome.unwrap (Text.splitTerminator ':' groups)[0]?
  .ok
    { buffer := []
      group := group
      groupId := groupId
      prompt := promptFor username (Text.trimEnd hostname)
      userId := userId
      username := username
      workingDirectory := home }

/-- The texts that the shell displays, each written by a call of its own. -/
def display (self : Shell) (initrd : Initrd) : Outcome (List String) := do
  let motd ← readText initrd "initrd/etc/motd"
  .ok [motd ++ "\n", self.prompt]

end Shell

/-!
# Commands
-/

structure Console where
  shell : Shell
  scheduler : Scheduler
  logger : Logger
  elapsed : Nat

namespace Console

def help : String :=
  "Available commands:\n" ++
  "\techo     -- Display a line of text.\n" ++
  "\tfork     -- Create child process.\n" ++
  "\thelp     -- Print a list of commands.\n" ++
  "\tid       -- Print user and group ID.\n" ++
  "\tlogs     -- Retrieve the system logs.\n" ++
  "\tpwd      -- Print current working directory.\n" ++
  "\treadelf  -- Read ELF executable file.\n" ++
  "\treboot   -- Reboot the operating system.\n" ++
  "\tshutdown -- Shutdown the operating system.\n" ++
  "\ttime     -- Display the elapsed time.\n"

def execute (profile : Profile) (initrd : Initrd) (self : Console) (command : String)
    (argument : Option String) : Outcome (Console × String) :=
  match command with
  | "echo" => .ok (self, argument.getD "" ++ "\n")
  | "fork" => do
      let (scheduler, pid) ← self.scheduler.fork
      .ok ({ self with scheduler := scheduler }, s!"Created child process with ID #{pid}.\n")
  | "help" => .ok (self, help)
  | "id" =>
      let shell := self.shell
      .ok (self,
        s!"uid={shell.userId}({shell.username}) gid={shell.groupId}({shell.group})\n")
  | "logs" =>
      .ok (self, String.join (self.logger.getLogs.map fun log => log.fmt ++ "\n"))
  | "pwd" => .ok (self, self.shell.workingDirectory ++ "\n")
  | "readelf" => do
      let executable ← Elf.new profile initrd (argument.getD "")
      .ok (self, executable.fmt ++ "\n")
  | "reboot" => .ok (self, "Rebooting the operating system.\n")
  | "shutdown" => .ok (self, "Shutting down the operating system.\n")
  | "time" => .ok (self, s!"{self.elapsed}\n")
  | _ => .ok (self, Ansi.red ++ "ERROR: Command not found.\n")

def setBuffer (self : Console) (buffer : List Char) : Console :=
  { self with shell := { self.shell with buffer := buffer } }

def parseLine (line : String) : String × Option String :=
  match Text.splitOnce Text.isWhitespace line with
  | some pair => (pair.1, some pair.2)
  | none => (line, none)

/-- One received byte, for any way to write a text and to run a command. -/
def interpretWith [Monad m] (write : String -> m PUnit)
    (run : Console -> String -> Option String -> m (Console × String)) (self : Console)
    (byte : UInt8) : m Console := do
  let character := Serial.read byte
  if character = '\r' then
    let (command, argument) := parseLine (String.ofList self.shell.buffer)
    write (Ansi.normal ++ "\n")
    let (after, text) ← run self command argument
    write text
    write after.shell.prompt
    pure (after.setBuffer [])
  else if character = '\x08' then
    if self.shell.buffer = [] then
      pure self
    else
      write (String.ofList [character, ' ', character])
      pure (self.setBuffer self.shell.buffer.dropLast)
  else
    write (String.ofList [character])
    pure (self.setBuffer (self.shell.buffer ++ [character]))

def interpret (profile : Profile) (initrd : Initrd) (self : Console) (byte : UInt8) :
    Traced UInt8 Console :=
  self.interpretWith Serial.write
    (fun console command argument =>
      Traced.lift (console.execute profile initrd command argument)) byte

def reply (profile : Profile) (initrd : Initrd) (self : Console) (byte : UInt8) :
    Outcome (Console × List UInt8) :=
  (self.interpret profile initrd byte).returned

def tick (self : Console) : Outcome Console := do
  let (scheduler, logs) ← self.scheduler.tick
  .ok
    { self with
      scheduler := scheduler
      logger := self.logger.record logs
      elapsed := (self.elapsed + 1) % 2 ^ 32 }

inductive Interrupt where
  | timer
  | serial (byte : UInt8)
  deriving DecidableEq, Repr

def machine (profile : Profile) (initrd : Initrd) : Machine Console Interrupt (List UInt8) where
  step self
    | .timer => do
        let after ← self.tick
        .ok (after, [])
    | .serial byte => self.reply profile initrd byte

def boot (initrd : Initrd) (logger : Logger) (elapsed : Nat) :
    Outcome (Console × List UInt8) := do
  let shell ← Shell.new initrd
  let texts ← shell.display initrd
  .ok
    ({ shell := shell
       scheduler := Scheduler.initialized 100
       logger := logger
       elapsed := elapsed },
      texts.flatMap Serial.writeStr)

end Console

end NeurOS
