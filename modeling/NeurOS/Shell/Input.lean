import NeurOS.Elf.Decode
import NeurOS.Shell.Model

/-!
# Typed input

A line editor says which lines the received bytes dispatch.  The console follows
it, and panics exactly at the lines that name an executable it cannot read.
-/

namespace NeurOS

open Foundation

/-!
# The line editor
-/

namespace LineEditor

def edit (line : List Char) (c : Char) : List Char :=
  if c = '\x08' then line.dropLast else line ++ [c]

def dispatched : List Char -> List UInt8 -> List (List Char)
  | _, [] => []
  | line, byte :: rest =>
      if Serial.read byte = '\r' then
        line :: dispatched [] rest
      else
        dispatched (edit line (Serial.read byte)) rest

def commandOf (line : List Char) : String :=
  String.ofList (line.takeWhile fun c => !Text.isWhitespace c)

def argumentOf (line : List Char) : String :=
  String.ofList ((line.dropWhile fun c => !Text.isWhitespace c).drop 1)

/-- What stands up to the first white space of a line, and what stands behind it, if there
is white space. -/
def inputOf (line : List Char) : String × Option String :=
  match line.dropWhile fun c => !Text.isWhitespace c with
  | [] => (commandOf line, none)
  | _ :: argument => (commandOf line, some (String.ofList argument))

theorem inputOf_command (line : List Char) : (inputOf line).1 = commandOf line := by
  unfold inputOf
  cases line.dropWhile fun c => !Text.isWhitespace c with
  | nil => rfl
  | cons c argument => rfl

theorem inputOf_argument (line : List Char) :
    (inputOf line).2.getD "" = argumentOf line := by
  unfold inputOf argumentOf
  cases line.dropWhile fun c => !Text.isWhitespace c with
  | nil => rfl
  | cons c argument => rfl

end LineEditor

namespace Console

open LineEditor

section Interpret

variable {profile : Profile} {initrd : Initrd} {self : Console}

theorem fork_of_queue (hqueue : self.scheduler.queue ≠ []) :
    exists scheduler pid, self.scheduler.fork = .ok (scheduler, pid) ∧
      scheduler.queue ≠ [] := by
  cases hscheduler : self.scheduler with
  | mk queue quantum remaining =>
      rw [hscheduler] at hqueue
      cases queue with
      | nil => exact absurd rfl hqueue
      | cons parent rest =>
          exact ⟨_, _, Scheduler.fork_cons parent rest quantum remaining, by simp⟩

theorem execute_cases (profile : Profile) (initrd : Initrd) (self : Console)
    (command : String) (argument : Option String) :
    (command = "readelf" ∧ execute profile initrd self command argument = (do
      let executable ← Elf.new profile initrd (argument.getD "")
      .ok (self, executable.fmt ++ "\n"))) ∨
    (command = "fork" ∧ execute profile initrd self command argument = (do
      let (scheduler, pid) ← self.scheduler.fork
      .ok ({ self with scheduler := scheduler },
        s!"Created child process with ID #{pid}.\n"))) ∨
    (command ≠ "readelf" ∧ exists text,
      execute profile initrd self command argument = .ok (self, text)) := by
  by_cases hreadelf : command = "readelf"
  · subst hreadelf
    exact Or.inl ⟨rfl, rfl⟩
  by_cases hfork : command = "fork"
  · subst hfork
    exact Or.inr (Or.inl ⟨rfl, rfl⟩)
  · right
    right
    refine ⟨hreadelf, ?_⟩
    unfold execute
    split
    case h_2 => exact absurd rfl hfork
    case h_7 => exact absurd rfl hreadelf
    all_goals exact ⟨_, rfl⟩

theorem execute_ok_iff (hqueue : self.scheduler.queue ≠ []) (command : String)
    (argument : Option String) :
    (exists after text, execute profile initrd self command argument = .ok (after, text)) <->
      (command = "readelf" ->
        exists elf, Elf.new profile initrd (argument.getD "") = .ok elf) := by
  rcases execute_cases profile initrd self command argument with
    ⟨hcommand, hexecute⟩ | ⟨hcommand, hexecute⟩ | ⟨hcommand, text, hexecute⟩
  · rw [hexecute]
    simp [hcommand, Outcome.bind_eq_ok_iff]
  · rcases fork_of_queue hqueue with ⟨scheduler, pid, hfork, _⟩
    rw [hexecute, hfork]
    simp [hcommand]
  · rw [hexecute]
    simp [hcommand]

theorem execute_queue (hqueue : self.scheduler.queue ≠ []) {command text : String}
    {argument : Option String} {after : Console}
    (h : execute profile initrd self command argument = .ok (after, text)) :
    after.scheduler.queue ≠ [] := by
  rcases execute_cases profile initrd self command argument with
    ⟨_, hexecute⟩ | ⟨_, hexecute⟩ | ⟨_, other, hexecute⟩
  · rw [hexecute] at h
    rcases Outcome.bind_eq_ok_iff.mp h with ⟨elf, _, heq⟩
    cases heq
    exact hqueue
  · rcases fork_of_queue hqueue with ⟨scheduler, pid, hfork, hafter⟩
    rw [hexecute, hfork] at h
    cases h
    exact hafter
  · rw [hexecute] at h
    cases h
    exact hqueue

theorem execute_shell {command text : String} {argument : Option String} {after : Console}
    (h : execute profile initrd self command argument = .ok (after, text)) :
    after.shell = self.shell := by
  rcases execute_cases profile initrd self command argument with
    ⟨_, hexecute⟩ | ⟨_, hexecute⟩ | ⟨_, other, hexecute⟩
  · rw [hexecute] at h
    rcases Outcome.bind_eq_ok_iff.mp h with ⟨elf, _, heq⟩
    cases heq
    rfl
  · rw [hexecute] at h
    rcases Outcome.bind_eq_ok_iff.mp h with ⟨forked, _, heq⟩
    cases heq
    rfl
  · rw [hexecute] at h
    cases h
    rfl

theorem parseLine_ofList (line : List Char) :
    parseLine (String.ofList line) = inputOf line := by
  have hsplit := List.takeWhile_append_dropWhile
    (p := fun c => !Text.isWhitespace c) (l := line)
  unfold parseLine Text.splitOnce inputOf commandOf
  rw [String.toList_ofList]
  cases hdrop : line.dropWhile (fun c => !Text.isWhitespace c) with
  | nil =>
      rw [hdrop, List.append_nil] at hsplit
      rw [hsplit]
  | cons c after => rfl

theorem interpretWith_return [Monad m] (write : String -> m PUnit)
    (run : Console -> String -> Option String -> m (Console × String)) {byte : UInt8}
    (h : Serial.read byte = '\r') :
    self.interpretWith write run byte = (do
      write (Ansi.normal ++ "\n")
      let (after, text) ← run self (inputOf self.shell.buffer).1 (inputOf self.shell.buffer).2
      write text
      write after.shell.prompt
      pure (after.setBuffer [])) := by
  simp only [interpretWith, if_pos h, parseLine_ofList]

def echo (self : Console) (c : Char) : Option String :=
  if c = '\x08' then
    if self.shell.buffer = [] then none else some (String.ofList [c, ' ', c])
  else
    some (String.ofList [c])

theorem interpretWith_edit [Monad m] (write : String -> m PUnit)
    (run : Console -> String -> Option String -> m (Console × String)) {byte : UInt8}
    (h : Serial.read byte ≠ '\r') :
    self.interpretWith write run byte =
      (self.echo (Serial.read byte)).elim
        (pure (self.setBuffer (edit self.shell.buffer (Serial.read byte)))) fun text => (do
          write text
          pure (self.setBuffer (edit self.shell.buffer (Serial.read byte)))) := by
  simp only [interpretWith, echo, edit, if_neg h]
  by_cases hback : Serial.read byte = '\x08'
  · by_cases hempty : self.shell.buffer = []
    · have hsame : self.setBuffer self.shell.buffer.dropLast = self := by
        rw [hempty, List.dropLast_nil, ← hempty]
        rfl
      simp only [if_pos hback, if_pos hempty, hsame, Option.elim_none]
    · simp only [if_pos hback, if_neg hempty, Option.elim_some]
  · simp only [if_neg hback, Option.elim_some]

theorem interpret_return {byte : UInt8} (h : Serial.read byte = '\r') :
    interpret profile initrd self byte =
      Traced.after (Serial.writeStr (Ansi.normal ++ "\n")) (do
        let (after, text) ← Traced.lift (execute profile initrd self
          (inputOf self.shell.buffer).1 (inputOf self.shell.buffer).2)
        Traced.emits (Serial.writeStr text ++ Serial.writeStr after.shell.prompt)
          (after.setBuffer [])) := by
  unfold interpret
  rw [interpretWith_return _ _ h, Serial.write, Traced.emits_bind]
  congr 1
  cases execute profile initrd self (inputOf self.shell.buffer).1
    (inputOf self.shell.buffer).2 with
  | error p => rfl
  | ok result =>
      simp only [Traced.lift_ok_bind, Serial.write, Traced.emits_bind, Traced.after_after]
      exact congrArg (Traced.emits · _) (List.append_nil _)

theorem reply_return {byte : UInt8} (h : Serial.read byte = '\r') :
    reply profile initrd self byte = (do
      let (after, text) ← execute profile initrd self (inputOf self.shell.buffer).1
        (inputOf self.shell.buffer).2
      .ok (after.setBuffer [],
        Serial.writeStr (Ansi.normal ++ "\n") ++ Serial.writeStr text ++
          Serial.writeStr after.shell.prompt)) := by
  unfold reply
  rw [interpret_return h]
  cases execute profile initrd self (inputOf self.shell.buffer).1
    (inputOf self.shell.buffer).2 with
  | error p => rfl
  | ok result =>
      rcases result with ⟨after, text⟩
      simp only [Traced.lift_ok_bind, Outcome.ok_bind, Traced.after_emits, List.append_assoc]
      rfl

theorem interpret_edit (profile : Profile) (initrd : Initrd) {byte : UInt8}
    (h : Serial.read byte ≠ '\r') :
    interpret profile initrd self byte =
      Traced.emits ((self.echo (Serial.read byte)).elim [] Serial.writeStr)
        (self.setBuffer (edit self.shell.buffer (Serial.read byte))) := by
  unfold interpret
  rw [interpretWith_edit _ _ h]
  cases self.echo (Serial.read byte) with
  | none => rfl
  | some text => exact congrArg (Traced.emits · _) (List.append_nil _)

theorem reply_edit (profile : Profile) (initrd : Initrd) {byte : UInt8}
    (h : Serial.read byte ≠ '\r') :
    reply profile initrd self byte =
      .ok (self.setBuffer (edit self.shell.buffer (Serial.read byte)),
        (self.echo (Serial.read byte)).elim [] Serial.writeStr) := by
  unfold reply
  rw [interpret_edit profile initrd h]
  rfl

theorem tick_total (hqueue : self.scheduler.queue ≠ []) :
    exists after, self.tick = .ok after ∧ after.shell = self.shell ∧
      after.scheduler.queue ≠ [] := by
  cases hswitch : self.scheduler.switches with
  | false =>
      rcases Scheduler.tick_of_not_switches hswitch with ⟨logs, htick⟩
      simp only [tick, htick, Outcome.ok_bind]
      exact ⟨_, rfl, rfl, hqueue⟩
  | true =>
      rcases Scheduler.tick_of_switches hswitch with
        ⟨current, second, rest, logs, _, htick⟩
      simp only [tick, htick, Outcome.ok_bind]
      exact ⟨_, rfl, rfl, List.cons_ne_nil _ _⟩

end Interpret

/-!
# Whole runs
-/

/-- The line does not make the shell read an executable that the file does not allow. -/
def Harmless (profile : Profile) (initrd : Initrd) (line : List Char) : Prop :=
  commandOf line = "readelf" ->
    exists data, initrd.getData (argumentOf line) = .ok data ∧ Elf.Readable profile data

def typed (interrupts : List Interrupt) : List UInt8 :=
  interrupts.filterMap fun interrupt =>
    match interrupt with
    | .timer => none
    | .serial byte => some byte

theorem reply_return_ok_iff (profile : Profile) (initrd : Initrd) {self : Console}
    (hqueue : self.scheduler.queue ≠ []) {byte : UInt8} (h : Serial.read byte = '\r') :
    (exists after bytes, reply profile initrd self byte = .ok (after, bytes)) <->
      Harmless profile initrd self.shell.buffer := by
  rw [reply_return h]
  unfold Harmless
  rw [← Elf.new_ok_iff, ← inputOf_argument, ← inputOf_command, ← execute_ok_iff hqueue]
  constructor
  · intro hok
    rcases hok with ⟨after, bytes, hok⟩
    rcases Outcome.bind_eq_ok_iff.mp hok with ⟨⟨console, text⟩, hexecute, _⟩
    exact ⟨console, text, hexecute⟩
  · intro hok
    rcases hok with ⟨console, text, hexecute⟩
    rw [hexecute]
    exact ⟨_, _, rfl⟩

theorem reply_return_after {profile : Profile} {initrd : Initrd} {self after : Console}
    (hqueue : self.scheduler.queue ≠ []) {byte : UInt8} {bytes : List UInt8}
    (h : Serial.read byte = '\r')
    (hok : reply profile initrd self byte = .ok (after, bytes)) :
    after.shell.buffer = [] ∧ after.scheduler.queue ≠ [] := by
  rw [reply_return h] at hok
  rcases Outcome.bind_eq_ok_iff.mp hok with ⟨⟨console, text⟩, hexecute, heq⟩
  cases heq
  have hafter : console.scheduler.queue ≠ [] := execute_queue hqueue hexecute
  exact ⟨rfl, hafter⟩

theorem reply_ok_or_readelf (profile : Profile) (initrd : Initrd) {self : Console}
    (hqueue : self.scheduler.queue ≠ []) (byte : UInt8) :
    (exists after bytes, reply profile initrd self byte = .ok (after, bytes) ∧
      after.scheduler.queue ≠ []) ∨
    exists p, reply profile initrd self byte = .error p ∧ Serial.read byte = '\r' ∧
      commandOf self.shell.buffer = "readelf" := by
  by_cases hreturn : Serial.read byte = '\r'
  · cases hreply : reply profile initrd self byte with
    | ok result =>
        exact Or.inl ⟨result.1, result.2, rfl,
          (reply_return_after hqueue hreturn hreply).2⟩
    | error p =>
        right
        refine ⟨p, rfl, hreturn, ?_⟩
        by_contra hreadelf
        have hok := (reply_return_ok_iff profile initrd hqueue hreturn).mpr
          (fun hcommand => absurd hcommand hreadelf)
        rcases hok with ⟨after, bytes, hok⟩
        rw [hreply] at hok
        cases hok
  · exact Or.inl ⟨_, _, reply_edit profile initrd hreturn, hqueue⟩

/-- A run succeeds exactly when every line that it dispatches is harmless. -/
theorem run_ok_iff {profile : Profile} {initrd : Initrd} {self : Console}
    (hqueue : self.scheduler.queue ≠ []) (interrupts : List Interrupt) :
    (exists after outputs, (machine profile initrd).run self interrupts = .ok (after, outputs)) <->
      forall line, line ∈ dispatched self.shell.buffer (typed interrupts) ->
        Harmless profile initrd line := by
  induction interrupts generalizing self with
  | nil => simp [typed, dispatched, Machine.run]
  | cons interrupt rest ih =>
      rw [Machine.exists_run_cons_iff]
      cases interrupt with
      | timer =>
          rcases tick_total hqueue with ⟨after, htick, hshell, hafter⟩
          have hstep : (machine profile initrd).step self .timer = .ok (after, []) := by
            simp [machine, htick]
          have hrest := ih hafter
          rw [hshell] at hrest
          change _ <-> forall line, line ∈ dispatched self.shell.buffer (typed rest) -> _
          rw [← hrest, hstep]
          simp
      | serial byte =>
          change (exists s' answer, reply profile initrd self byte = .ok (s', answer) ∧ _) <->
            forall line, line ∈ dispatched self.shell.buffer (byte :: typed rest) -> _
          by_cases hreturn : Serial.read byte = '\r'
          · have hok := reply_return_ok_iff profile initrd hqueue hreturn
            simp only [dispatched, if_pos hreturn, List.forall_mem_cons]
            constructor
            · intro h
              rcases h with ⟨after, bytes, hreply, hrun⟩
              rcases reply_return_after hqueue hreturn hreply with ⟨hbuffer, hafter⟩
              have hrest := (ih hafter).mp hrun
              rw [hbuffer] at hrest
              exact ⟨hok.mp ⟨after, bytes, hreply⟩, hrest⟩
            · intro h
              rcases hok.mpr h.1 with ⟨after, bytes, hreply⟩
              rcases reply_return_after hqueue hreturn hreply with ⟨hbuffer, hafter⟩
              refine ⟨after, bytes, hreply, (ih hafter).mpr ?_⟩
              rw [hbuffer]
              exact h.2
          · have hedit := @reply_edit self profile initrd byte hreturn
            have hafter : (self.setBuffer (edit self.shell.buffer
                (Serial.read byte))).scheduler.queue ≠ [] := hqueue
            have hrest := ih hafter
            change _ <-> forall line, line ∈ dispatched (edit self.shell.buffer
              (Serial.read byte)) (typed rest) -> _ at hrest
            simp only [dispatched, if_neg hreturn]
            rw [← hrest, hedit]
            simp

/-!
# The console after boot
-/

structure EtcWellFormed (initrd : Initrd) : Prop where
  hostname : exists text, initrd.getData "initrd/etc/hostname" = .ok (Text.bytesOf text)
  passwd : exists text username password user group comment home rest userId groupId,
    initrd.getData "initrd/etc/passwd" = .ok (Text.bytesOf text) ∧
      Text.splitTerminator ':' text =
        username :: password :: user :: group :: comment :: home :: rest ∧
      Text.fromStrRadix 32 10 user = some userId ∧
      Text.fromStrRadix 32 10 group = some groupId
  group : exists text name rest, initrd.getData "initrd/etc/group" = .ok (Text.bytesOf text) ∧
    Text.splitTerminator ':' text = name :: rest
  motd : exists text, initrd.getData "initrd/etc/motd" = .ok (Text.bytesOf text)

theorem readText_of_getData {initrd : Initrd} {path text : String}
    (h : initrd.getData path = .ok (Text.bytesOf text)) :
    Shell.readText initrd path = .ok text := by
  unfold Shell.readText
  rw [h, Outcome.ok_bind, Text.fromUtf8_bytesOf]

theorem boot_of_wellFormed {initrd : Initrd} (h : EtcWellFormed initrd) (logger : Logger)
    (elapsed : Nat) :
    exists console bytes, boot initrd logger elapsed = .ok (console, bytes) ∧
      console.shell.buffer = [] ∧ console.scheduler.queue ≠ [] := by
  rcases h.hostname with ⟨hostname, hhostname⟩
  rcases h.passwd with ⟨passwd, username, password, user, group, comment, home, rest,
    userId, groupId, hpasswd, hfields, huser, hgroupId⟩
  rcases h.group with ⟨groups, name, more, hgroups, hname⟩
  rcases h.motd with ⟨motd, hmotd⟩
  have hnew : exists shell, Shell.new initrd = .ok shell ∧ shell.buffer = [] := by
    unfold Shell.new
    simp [readText_of_getData hhostname, readText_of_getData hpasswd,
      readText_of_getData hgroups, hfields, hname, Shell.parseId, huser, hgroupId]
  rcases hnew with ⟨shell, hshell, hbuffer⟩
  have hdisplay : shell.display initrd = .ok [motd ++ "\n", shell.prompt] := by
    simp [Shell.display, readText_of_getData hmotd]
  refine ⟨{ shell, scheduler := Scheduler.initialized 100, logger, elapsed },
    [motd ++ "\n", shell.prompt].flatMap Serial.writeStr, ?_, hbuffer, List.cons_ne_nil _ _⟩
  simp only [boot, hshell, hdisplay, Outcome.ok_bind]

/-- After boot, every received byte is interpreted without a panic if and only if no
dispatched line makes the shell read an executable that the file does not allow. -/
theorem typed_input_harmless_iff (profile : Profile) {initrd : Initrd}
    (h : EtcWellFormed initrd) (logger : Logger) (elapsed : Nat) :
    exists console bytes, boot initrd logger elapsed = .ok (console, bytes) ∧
      forall interrupts,
        (exists after outputs,
          (machine profile initrd).run console interrupts = .ok (after, outputs)) <->
        forall line, line ∈ dispatched [] (typed interrupts) ->
          Harmless profile initrd line := by
  rcases boot_of_wellFormed h logger elapsed with ⟨console, bytes, hboot, hbuffer, hqueue⟩
  refine ⟨console, bytes, hboot, ?_⟩
  intro interrupts
  rw [run_ok_iff hqueue, hbuffer]

def etcFile (path text : String) : Initrd.File where
  header :=
    { name := path, mode := 644, userId := 0, groupId := 0,
      size := (Text.bytesOf text).length, mtime := 0, checksum := "", flag := 0,
      linked := "", indicator := "ustar", version := "00", username := "root",
      group := "root", major := 0, minor := 0, namePrefix := "" }
  data := Text.bytesOf text

def etcInitrd : Initrd where
  files :=
    [etcFile "initrd/etc/hostname" "localhost\n",
      etcFile "initrd/etc/passwd" "root:x:0:0:Super User:/root:/bin/sh\n",
      etcFile "initrd/etc/group" "root:x:0:\n",
      etcFile "initrd/etc/motd" "NeurOS\n"]

theorem etcInitrd_wellFormed : EtcWellFormed etcInitrd where
  hostname := ⟨"localhost\n", rfl⟩
  passwd := ⟨"root:x:0:0:Super User:/root:/bin/sh\n", "root", "x", "0", "0", "Super User",
    "/root", ["/bin/sh\n"], 0, 0, rfl, by decide, by decide, by decide⟩
  group := ⟨"root:x:0:\n", "root", ["x", "0", "\n"], rfl, by decide⟩
  motd := ⟨"NeurOS\n", rfl⟩

def missingExecutable : List Interrupt :=
  (Text.bytesOf "readelf x\x0d").map .serial

theorem typed_input_harmless_iff_sample :
    exists console bytes, boot etcInitrd Logger.new 0 = .ok (console, bytes) ∧
      forall interrupts,
        (exists after outputs,
          (machine .dev etcInitrd).run console interrupts = .ok (after, outputs)) <->
        forall line, line ∈ dispatched [] (typed interrupts) -> Harmless .dev etcInitrd line :=
  typed_input_harmless_iff .dev etcInitrd_wellFormed Logger.new 0

/-- After boot, a command that names a missing file panics. -/
theorem missing_executable_panics :
    EtcWellFormed etcInitrd ∧
      exists console bytes, boot etcInitrd Logger.new 0 = .ok (console, bytes) ∧
        (machine .dev etcInitrd).run console missingExecutable = .error .unwrapNone ∧
        (machine .release etcInitrd).run console missingExecutable = .error .unwrapNone :=
  ⟨etcInitrd_wellFormed, _, _, rfl, rfl, rfl⟩

end Console

end NeurOS
