import NeurOS.Foundation.TerminalRow
import NeurOS.Shell.Input

/-!
# Faithful line editing

The buffer is what a reference editor makes of the bytes since the last carriage
return, and a terminal that obeys the echo shows it behind the prompt.
-/

namespace NeurOS

open Foundation

namespace LineEditor

def editFrom (line : List Char) (bytes : List UInt8) : List Char :=
  bytes.foldl (fun line byte => edit line (Serial.read byte)) line

def edited (bytes : List UInt8) : List Char :=
  editFrom [] bytes

/-- The bytes between carriage returns; the last part is not finished. -/
def parts (bytes : List UInt8) : List (List UInt8) :=
  bytes.splitOn 0x0D

/-- The lines after the bytes, the first of them begun before. -/
def linesFrom (line : List Char) (bytes : List UInt8) : List (List Char) :=
  match parts bytes with
  | [] => []
  | first :: rest => editFrom line first :: rest.map edited

theorem linesFrom_empty (bytes : List UInt8) : linesFrom [] bytes = (parts bytes).map edited := by
  unfold linesFrom
  cases parts bytes with
  | nil => rfl
  | cons first rest => rfl

theorem linesFrom_return (line : List Char) (rest : List UInt8) :
    linesFrom line (0x0D :: rest) = line :: linesFrom [] rest := by
  rw [linesFrom_empty]
  unfold linesFrom parts
  rw [List.splitOn_cons_eq_if_modifyHead]
  rfl

theorem linesFrom_other {byte : UInt8} (h : byte ≠ 0x0D) (line : List Char)
    (rest : List UInt8) :
    linesFrom line (byte :: rest) = linesFrom (edit line (Serial.read byte)) rest := by
  unfold linesFrom parts
  rw [List.splitOn_cons_eq_if_modifyHead, if_neg (by simpa using h)]
  cases rest.splitOn 0x0D with
  | nil => rfl
  | cons first others => rfl

/-!
# Received characters
-/

theorem read_toNat (byte : UInt8) : (Serial.read byte).toNat = byte.toNat := by
  have hlt := byte.toNat_lt
  have hvalid : byte.toNat.isValidChar := Or.inl (by lia)
  unfold Serial.read
  rw [Char.ofNat, dif_pos hvalid]
  rfl

theorem read_eq_iff (byte other : UInt8) : Serial.read byte = Serial.read other <->
    byte = other := by
  constructor
  · intro h
    have hcodes := congrArg Char.toNat h
    rw [read_toNat, read_toNat] at hcodes
    exact UInt8.toNat_inj.mp hcodes
  · intro h
    rw [h]

theorem read_eq_return_iff (byte : UInt8) : Serial.read byte = '\r' <-> byte = 0x0D :=
  read_eq_iff byte 0x0D

theorem read_eq_backspace_iff (byte : UInt8) : Serial.read byte = '\x08' <-> byte = 0x08 :=
  read_eq_iff byte 0x08

theorem read_eq_newline_iff (byte : UInt8) : Serial.read byte = '\n' <-> byte = 0x0A :=
  read_eq_iff byte 0x0A

theorem writeChar_read (byte : UInt8) : Serial.writeChar (Serial.read byte) = [byte] := by
  have hcode : (Serial.read byte).val.toNat = byte.toNat := read_toNat byte
  have hbyte : (Serial.read byte).val.toUInt8 = byte := by
    apply UInt8.toNat_inj.mp
    rw [UInt32.toNat_toUInt8, hcode, Nat.mod_eq_of_lt byte.toNat_lt]
  exact congrArg (fun b => [b]) hbyte

end LineEditor

namespace Console

open LineEditor

/-!
# Dispatched commands
-/

def note (profile : Profile) (initrd : Initrd) (self : Console) (byte : UInt8) :
    Traced (String × Option String) Console :=
  self.interpretWith (fun _ => pure ⟨⟩)
    (fun console command argument => do
      Traced.emit (command, argument)
      Traced.lift (console.execute profile initrd command argument)) byte

def dispatches (profile : Profile) (initrd : Initrd) (self : Console) :
    Interrupt -> List (String × Option String)
  | .timer => []
  | .serial byte => (self.note profile initrd byte).emitted

/-- What a run hands to `execute`, up to the first panic. -/
def executed (profile : Profile) (initrd : Initrd) :
    Console -> List Interrupt -> List (String × Option String)
  | _, [] => []
  | self, interrupt :: rest =>
      self.dispatches profile initrd interrupt ++
        match (machine profile initrd).step self interrupt with
        | .error _ => []
        | .ok (after, _) => executed profile initrd after rest

theorem note_return (profile : Profile) (initrd : Initrd) (self : Console) {byte : UInt8}
    (h : Serial.read byte = '\r') :
    (self.note profile initrd byte).emitted = [inputOf self.shell.buffer] := by
  unfold note
  rw [interpretWith_return _ _ h]
  simp only [Traced.pure_bind, Traced.emit, Traced.emits_bind]
  cases self.execute profile initrd (inputOf self.shell.buffer).1
    (inputOf self.shell.buffer).2 with
  | error p => rfl
  | ok result => rfl

theorem note_edit (profile : Profile) (initrd : Initrd) (self : Console) {byte : UInt8}
    (h : Serial.read byte ≠ '\r') :
    (self.note profile initrd byte).emitted = [] := by
  unfold note
  rw [interpretWith_edit _ _ h]
  cases self.echo (Serial.read byte) with
  | none => rfl
  | some text => rfl

theorem executed_cons {profile : Profile} {initrd : Initrd} {self after : Console}
    {interrupt : Interrupt} {bytes : List UInt8}
    (h : (machine profile initrd).step self interrupt = .ok (after, bytes))
    (rest : List Interrupt) :
    executed profile initrd self (interrupt :: rest) =
      self.dispatches profile initrd interrupt ++ executed profile initrd after rest := by
  rw [executed, h]

section Run

variable {profile : Profile} {initrd : Initrd} {self after : Console}

theorem reply_buffer {byte : UInt8} {bytes : List UInt8}
    (h : reply profile initrd self byte = .ok (after, bytes)) :
    after.shell.buffer =
      if Serial.read byte = '\r' then [] else edit self.shell.buffer (Serial.read byte) := by
  by_cases hreturn : Serial.read byte = '\r'
  · rw [if_pos hreturn]
    rw [reply_return hreturn] at h
    rcases Outcome.bind_eq_ok_iff.mp h with ⟨⟨console, text⟩, _, heq⟩
    cases heq
    rfl
  · rw [if_neg hreturn]
    rw [reply_edit profile initrd hreturn] at h
    cases h
    rfl

theorem tick_shell (h : self.tick = .ok after) : after.shell = self.shell := by
  rcases Outcome.bind_eq_ok_iff.mp h with ⟨⟨scheduler, logs⟩, _, heq⟩
  cases heq
  rfl

/-- The lines that the bytes make are the dispatched ones and the buffer. -/
theorem run_lines {interrupts : List Interrupt} {outputs : List (List UInt8)}
    (h : (machine profile initrd).run self interrupts = .ok (after, outputs)) :
    exists done, linesFrom self.shell.buffer (typed interrupts) = done ++ [after.shell.buffer] ∧
      executed profile initrd self interrupts = done.map inputOf := by
  induction interrupts generalizing self outputs with
  | nil =>
      cases h
      exact ⟨[], rfl, rfl⟩
  | cons interrupt rest ih =>
      rcases Machine.run_cons_eq_ok_iff.mp h with ⟨mid, answer, tail, hstep, htail, _⟩
      rcases ih htail with ⟨done, hlines, hexecuted⟩
      rw [executed_cons hstep]
      cases interrupt with
      | timer =>
          rcases Outcome.bind_eq_ok_iff.mp hstep with ⟨ticked, htick, heq⟩
          cases heq
          rw [tick_shell htick] at hlines
          exact ⟨done, hlines, hexecuted⟩
      | serial byte =>
          have hbuffer := reply_buffer hstep
          show exists done, linesFrom self.shell.buffer (byte :: typed rest) = _ ∧ _
          by_cases hreturn : Serial.read byte = '\r'
          · rw [if_pos hreturn] at hbuffer
            rw [hbuffer] at hlines
            refine ⟨self.shell.buffer :: done, ?_, ?_⟩
            · rw [(read_eq_return_iff byte).mp hreturn, linesFrom_return, hlines]
              rfl
            · rw [dispatches, note_return profile initrd self hreturn, hexecuted,
                List.map_cons, List.singleton_append]
          · rw [if_neg hreturn] at hbuffer
            rw [hbuffer] at hlines
            refine ⟨done, ?_, ?_⟩
            · rw [linesFrom_other (fun heq => hreturn ((read_eq_return_iff byte).mpr heq)), hlines]
            · rw [dispatches, note_edit profile initrd self hreturn, hexecuted,
                List.nil_append]

/-!
# The echo on a terminal
-/

def Plain (byte : UInt8) : Prop :=
  TerminalRow.Printable byte ∨ byte = 0x08 ∨ byte = 0x0D

def lineBytes (line : List Char) : List UInt8 :=
  line.flatMap Serial.writeChar

theorem lineBytes_concat (line : List Char) (byte : UInt8) :
    lineBytes (line ++ [Serial.read byte]) = lineBytes line ++ [byte] := by
  unfold lineBytes
  rw [List.flatMap_append, List.flatMap_singleton, writeChar_read]

theorem reply_backspace {byte : UInt8} (h : byte = 0x08) {bytes : List UInt8}
    (hok : reply profile initrd self byte = .ok (after, bytes)) :
    (self.shell.buffer = [] ∧ after.shell.buffer = [] ∧ bytes = []) ∨
    (self.shell.buffer ≠ [] ∧ after.shell.buffer = self.shell.buffer.dropLast ∧
      bytes = [0x08, TerminalRow.blank, 0x08]) := by
  subst h
  have hback : Serial.read 0x08 = '\x08' := rfl
  have hreturn : Serial.read 0x08 ≠ '\r' := by simp [hback]
  rw [reply_edit profile initrd hreturn, hback] at hok
  unfold echo edit at hok
  simp only [if_true] at hok
  by_cases hempty : self.shell.buffer = []
  · rw [if_pos hempty] at hok
    cases hok
    refine Or.inl ⟨hempty, ?_, rfl⟩
    show self.shell.buffer.dropLast = []
    rw [hempty, List.dropLast_nil]
  · rw [if_neg hempty] at hok
    cases hok
    exact Or.inr ⟨hempty, rfl, rfl⟩

theorem reply_character {byte : UInt8} (h : TerminalRow.Printable byte)
    {bytes : List UInt8} (hok : reply profile initrd self byte = .ok (after, bytes)) :
    after.shell.buffer = self.shell.buffer ++ [Serial.read byte] ∧ bytes = [byte] := by
  have hlow : 0x20 <= byte.toNat := h.1
  have hne : forall other : UInt8, other.toNat < 0x20 -> byte ≠ other := by
    intro other hother heq
    rw [heq] at hlow
    lia
  have hreturn : Serial.read byte ≠ '\r' :=
    fun heq => hne 0x0D (by simp) ((read_eq_return_iff byte).mp heq)
  have hback : Serial.read byte ≠ '\x08' :=
    fun heq => hne 0x08 (by simp) ((read_eq_backspace_iff byte).mp heq)
  have hnewline : Serial.read byte ≠ '\n' :=
    fun heq => hne 0x0A (by simp) ((read_eq_newline_iff byte).mp heq)
  rw [reply_edit profile initrd hreturn] at hok
  unfold echo edit at hok
  simp only [if_neg hback] at hok
  cases hok
  refine ⟨rfl, ?_⟩
  rw [Option.elim_some, Serial.writeStr, String.toList_ofList, List.flatMap_singleton,
    if_neg hnewline, writeChar_read]

theorem reply_echo {byte : UInt8} (hplain : Plain byte) (hreturn : byte ≠ 0x0D)
    {bytes : List UInt8} (hok : reply profile initrd self byte = .ok (after, bytes))
    (prompt : List UInt8) :
    (TerminalRow.showing (prompt ++ lineBytes self.shell.buffer)).feed bytes =
        TerminalRow.showing (prompt ++ lineBytes after.shell.buffer) ∧
      TerminalRow.Spares prompt.length
        (TerminalRow.showing (prompt ++ lineBytes self.shell.buffer)) bytes := by
  have hlength : prompt.length <= (prompt ++ lineBytes self.shell.buffer).length := by
    rw [List.length_append]
    exact Nat.le_add_right _ _
  rcases hplain with hprint | hback | hreturn'
  · rcases reply_character hprint hok with ⟨hbuffer, hbytes⟩
    rw [hbuffer, hbytes, lineBytes_concat, ← List.append_assoc]
    exact ⟨TerminalRow.put_printable hprint _, TerminalRow.spares_printable hlength byte⟩
  · rcases reply_backspace hback hok with
      ⟨hempty, hafter, hbytes⟩ | ⟨hsome, hafter, hbytes⟩
    · rw [hempty, hafter, hbytes]
      exact ⟨rfl, trivial⟩
    · have hsplit : prompt ++ lineBytes self.shell.buffer =
          prompt ++ lineBytes self.shell.buffer.dropLast ++
            [(self.shell.buffer.getLast hsome).val.toUInt8] := by
        conv_lhs => rw [← List.dropLast_append_getLast hsome]
        unfold lineBytes
        rw [List.flatMap_append, List.append_assoc]
        rfl
      rw [hafter, hbytes, hsplit]
      refine ⟨TerminalRow.feed_erase _ _, TerminalRow.spares_erase ?_ _⟩
      rw [List.length_append]
      exact Nat.le_add_right _ _
  · exact absurd hreturn' hreturn

theorem run_echo {since : List Interrupt} {outputs : List (List UInt8)}
    (hplain : forall byte, byte ∈ typed since -> Plain byte ∧ byte ≠ 0x0D)
    (h : (machine profile initrd).run self since = .ok (after, outputs))
    (prompt : List UInt8) :
    (TerminalRow.showing (prompt ++ lineBytes self.shell.buffer)).feed outputs.flatten =
        TerminalRow.showing (prompt ++ lineBytes after.shell.buffer) ∧
      TerminalRow.Spares prompt.length
        (TerminalRow.showing (prompt ++ lineBytes self.shell.buffer)) outputs.flatten := by
  induction since generalizing self outputs with
  | nil =>
      cases h
      exact ⟨rfl, trivial⟩
  | cons interrupt rest ih =>
      rcases Machine.run_cons_eq_ok_iff.mp h with ⟨mid, answer, tail, hstep, htail, houtputs⟩
      have hfirst : (TerminalRow.showing (prompt ++ lineBytes self.shell.buffer)).feed answer =
            TerminalRow.showing (prompt ++ lineBytes mid.shell.buffer) ∧
          TerminalRow.Spares prompt.length
            (TerminalRow.showing (prompt ++ lineBytes self.shell.buffer)) answer := by
        cases interrupt with
        | timer =>
            rcases Outcome.bind_eq_ok_iff.mp hstep with ⟨ticked, htick, heq⟩
            cases heq
            rw [tick_shell htick]
            exact ⟨rfl, trivial⟩
        | serial byte =>
            have hbyte := hplain byte List.mem_cons_self
            exact reply_echo hbyte.1 hbyte.2 hstep prompt
      have hrest : forall byte, byte ∈ typed rest -> Plain byte ∧ byte ≠ 0x0D := by
        intro byte hmem
        cases interrupt with
        | timer => exact hplain byte hmem
        | serial other => exact hplain byte (List.mem_cons_of_mem other hmem)
      rcases ih hrest htail with ⟨hfeed, hspares⟩
      rw [houtputs, List.flatten_cons]
      constructor
      · rw [TerminalRow.feed_append, hfirst.1, hfeed]
      · apply TerminalRow.spares_append hfirst.2
        rw [hfirst.1]
        exact hspares

/-- What line editing owes to a run that starts with an empty buffer. -/
structure Faithful (profile : Profile) (initrd : Initrd) (self : Console)
    (interrupts : List Interrupt) (after : Console) (outputs : List (List UInt8)) : Prop where
  buffer : after.shell.buffer = edited ((parts (typed interrupts)).getLastD [])
  dispatched : executed profile initrd self interrupts =
    (parts (typed interrupts)).dropLast.map fun bytes => inputOf (edited bytes)
  /-- From a dispatch on, a terminal that shows any prompt goes on to show the line. -/
  echo : forall first since, interrupts = first ++ since ->
    typed first = [] ∨ (typed first).getLast? = some 0x0D ->
    (forall byte, byte ∈ typed since -> Plain byte ∧ byte ≠ 0x0D) ->
    exists shown echoed, outputs = shown ++ echoed ∧ shown.length = first.length ∧
      forall prompt,
        (TerminalRow.showing prompt).feed echoed.flatten =
          TerminalRow.showing (prompt ++ lineBytes after.shell.buffer) ∧
        forall seen, seen <+: echoed.flatten -> forall i, i < prompt.length ->
          ((TerminalRow.showing prompt).feed seen).cell i = prompt.getD i TerminalRow.blank

theorem parts_return (bytes : List UInt8) : parts (bytes ++ [0x0D]) = parts bytes ++ [[]] :=
  List.splitOn_append_cons_self bytes []

theorem run_buffer (hempty : self.shell.buffer = []) {interrupts : List Interrupt}
    {outputs : List (List UInt8)}
    (h : (machine profile initrd).run self interrupts = .ok (after, outputs)) :
    after.shell.buffer = edited ((parts (typed interrupts)).getLastD []) := by
  rcases run_lines h with ⟨done, hlines, _⟩
  rw [hempty, linesFrom_empty] at hlines
  have hlast : ((parts (typed interrupts)).map edited).getLastD (edited []) =
      after.shell.buffer := by
    rw [hlines, List.getLastD_concat]
  rw [← hlast, List.getLastD_map]

/-- The buffer, the dispatched commands and the screen all follow the received bytes. -/
theorem editing_faithful (hempty : self.shell.buffer = []) {interrupts : List Interrupt}
    {outputs : List (List UInt8)}
    (h : (machine profile initrd).run self interrupts = .ok (after, outputs)) :
    Faithful profile initrd self interrupts after outputs := by
  refine ⟨run_buffer hempty h, ?_, ?_⟩
  · rcases run_lines h with ⟨done, hlines, hexecuted⟩
    rw [hempty, linesFrom_empty] at hlines
    have hinit := congrArg List.dropLast hlines
    rw [List.dropLast_concat, ← List.map_dropLast] at hinit
    rw [hexecuted, ← hinit, List.map_map]
    rfl
  · intro first since hsplit hfirst hplain
    rw [hsplit] at h
    rcases Machine.run_append_eq_ok_iff.mp h with ⟨mid, shown, echoed, hshown, hechoed, houtputs⟩
    have hmid : mid.shell.buffer = [] := by
      rw [run_buffer hempty hshown]
      rcases hfirst with hnone | hreturn
      · rw [hnone]
        rfl
      · rcases List.getLast?_eq_some_iff.mp hreturn with ⟨before, hbefore⟩
        rw [hbefore, parts_return, List.getLastD_concat]
        rfl
    refine ⟨shown, echoed, houtputs, Machine.run_length hshown, ?_⟩
    intro prompt
    have hecho := run_echo hplain hechoed prompt
    rw [hmid] at hecho
    have hnil : prompt ++ lineBytes [] = prompt := List.append_nil prompt
    rw [hnil] at hecho
    refine ⟨hecho.1, ?_⟩
    intro seen hseen i hi
    exact TerminalRow.feed_cell hecho.2 hseen hi

end Run

def corrected : List Interrupt :=
  (Text.bytesOf "ecgo\x08\x08ho hi\x0dpwd\x08").map .serial

theorem editing_faithful_sample :
    exists console bytes after outputs, boot etcInitrd Logger.new 0 = .ok (console, bytes) ∧
      (machine .dev etcInitrd).run console corrected = .ok (after, outputs) ∧
      Faithful .dev etcInitrd console corrected after outputs :=
  ⟨_, _, _, _, rfl, rfl, editing_faithful rfl rfl⟩

end Console

end NeurOS
