import NeurOS.Scheduler.Ring
import NeurOS.Shell.Editing

/-!
# One byte of a session

What an interpreted byte can do to the console and to the line, with the rest of the
console as it was.
-/

namespace NeurOS

open Foundation

namespace Console

open LineEditor

variable {profile : Profile} {initrd : Initrd} {self after : Console} {byte : UInt8}
variable {bytes : List UInt8}

/-- What the console writes behind a line: a new line, the text of the command and the prompt. -/
def answer (prompt text : String) : List UInt8 :=
  Serial.writeStr (Ansi.normal ++ "\n") ++ Serial.writeStr text ++ Serial.writeStr prompt

def forkText (pid : Nat) : String :=
  s!"Created child process with ID #{pid}.\n"

def identityText (shell : Shell) : String :=
  s!"uid={shell.userId}({shell.username}) gid={shell.groupId}({shell.group})\n"

theorem reply_spec (h : reply profile initrd self byte = .ok (after, bytes)) :
    (Serial.read byte ≠ '\r' ∧
      after = self.setBuffer (edit self.shell.buffer (Serial.read byte))) ∨
    (Serial.read byte = '\r' ∧ commandOf self.shell.buffer = "fork" ∧
      exists scheduler pid, self.scheduler.fork = .ok (scheduler, pid) ∧
        after = { self with scheduler := scheduler }.setBuffer [] ∧
        bytes = answer self.shell.prompt (forkText pid)) ∨
    (Serial.read byte = '\r' ∧ commandOf self.shell.buffer ≠ "fork" ∧
      after = self.setBuffer [] ∧ exists text,
        execute profile initrd self (commandOf self.shell.buffer)
          (inputOf self.shell.buffer).2 = .ok (self, text) ∧
        bytes = answer self.shell.prompt text) := by
  by_cases hreturn : Serial.read byte = '\r'
  · right
    rw [reply_return hreturn, inputOf_command] at h
    rcases Outcome.bind_eq_ok_iff.mp h with ⟨⟨console, text⟩, hexecute, heq⟩
    by_cases hfork : commandOf self.shell.buffer = "fork"
    · left
      rw [hfork] at hexecute
      rcases Outcome.bind_eq_ok_iff.mp hexecute with ⟨⟨scheduler, pid⟩, hscheduler, hconsole⟩
      cases hconsole
      cases heq
      exact ⟨hreturn, hfork, scheduler, pid, hscheduler, rfl, rfl⟩
    · right
      have hsame : console = self := by
        rcases execute_cases profile initrd self (commandOf self.shell.buffer)
          (inputOf self.shell.buffer).2 with ⟨_, hcase⟩ | ⟨hcommand, _⟩ | ⟨_, other, hcase⟩
        · rw [hcase] at hexecute
          rcases Outcome.bind_eq_ok_iff.mp hexecute with ⟨elf, _, hconsole⟩
          cases hconsole
          rfl
        · exact absurd hcommand hfork
        · rw [hcase] at hexecute
          cases hexecute
          rfl
      subst hsame
      cases heq
      exact ⟨hreturn, hfork, rfl, text, hexecute, rfl⟩
  · rw [reply_edit profile initrd hreturn] at h
    cases h
    exact Or.inl ⟨hreturn, rfl⟩

theorem reply_frame (h : reply profile initrd self byte = .ok (after, bytes)) :
    exists buffer scheduler, after =
      { self with shell := { self.shell with buffer := buffer }, scheduler := scheduler } := by
  rcases reply_spec h with ⟨_, hafter⟩ | ⟨_, _, scheduler, _, _, hafter, _⟩ |
    ⟨_, _, hafter, _⟩
  · exact ⟨_, _, hafter⟩
  · exact ⟨_, _, hafter⟩
  · exact ⟨_, _, hafter⟩

end Console

end NeurOS
