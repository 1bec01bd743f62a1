import NeurOS.Foundation.Outcome

/-!
# Colour sequences and the system log

The escape sequences of the console texts, the log records with their coloured
labels, and the log itself, to which every record is appended.
-/

namespace NeurOS

namespace Ansi

def blue : String := "\x1b[38;2;0;151;230m"

def bold : String := "\x1b[1m"

def default : String := "\x1b[39m"

def green : String := "\x1b[38;2;68;189;50m"

def normal : String := "\x1b[0m"

def orange : String := "\x1b[38;2;194;54;52m"

def purple : String := "\x1b[38;2;140;122;230m"

def red : String := "\x1b[38;2;232;65;24m"

def yellow : String := "\x1b[38;2;251;197;49m"

end Ansi

inductive Level where
  | fatal
  | error
  | warn
  | info
  | debug
  | trace
  deriving DecidableEq, Repr

structure Log where
  level : Level
  message : String
  deriving DecidableEq, Repr

def Level.label : Level -> String
  | .debug => Ansi.green ++ "[DEBUG]" ++ Ansi.default
  | .error => Ansi.red ++ "[ERROR]" ++ Ansi.default
  | .fatal => Ansi.orange ++ "[FATAL]" ++ Ansi.default
  | .info => Ansi.blue ++ "[INFO]" ++ Ansi.default
  | .trace => Ansi.purple ++ "[TRACE]" ++ Ansi.default
  | .warn => Ansi.yellow ++ "[WARN]" ++ Ansi.default

def Log.fmt (self : Log) : String :=
  self.level.label ++ " " ++ self.message

structure Logger where
  logs : List Log
  deriving DecidableEq, Repr

namespace Logger

def new : Logger where
  logs := []

def log (self : Logger) (level : Level) (message : String) : Logger where
  logs := self.logs ++ [{ level := level, message := message }]

def getLogs (self : Logger) : List Log :=
  self.logs

def record (self : Logger) (emitted : List Log) : Logger :=
  emitted.foldl (fun logger entry => logger.log entry.level entry.message) self

theorem record_getLogs (self : Logger) (emitted : List Log) :
    (self.record emitted).getLogs = self.getLogs ++ emitted := by
  induction emitted generalizing self with
  | nil => simp [record]
  | cons entry rest ih =>
      show ((self.log entry.level entry.message).record rest).getLogs =
        self.getLogs ++ entry :: rest
      rw [ih]
      simp [log, getLogs]

end Logger

end NeurOS
