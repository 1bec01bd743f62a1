import NeurOS.Initrd.Lookup
import NeurOS.Kernel.Session

/-!
# Typed commands

A line of printable characters, typed to the reference and to a booted kernel: its bytes
are echoed, and the carriage return behind it runs the command.  A file of the archive
that was assembled as an executable is shown as its parts.
-/

namespace NeurOS

open Foundation

namespace Console

open LineEditor

theorem reply_printable (profile : Profile) (initrd : Initrd) (self : Console) {byte : UInt8}
    (h : TerminalRow.Printable byte) :
    reply profile initrd self byte =
      .ok (self.setBuffer (self.shell.buffer ++ [Serial.read byte]), [byte]) := by
  have hlow : 0x20 <= byte.toNat := h.1
  have hother (other : UInt8) (hcontrol : other.toNat < 0x20) : byte ≠ other := by
    intro heq
    rw [heq] at hlow
    lia
  have hreturn : Serial.read byte ≠ '\r' :=
    fun heq => hother 0x0D (by simp) ((read_eq_return_iff byte).mp heq)
  have hback : Serial.read byte ≠ '\x08' :=
    fun heq => hother 0x08 (by simp) ((read_eq_backspace_iff byte).mp heq)
  have hreply := @reply_edit self profile initrd byte hreturn
  have hbytes := (reply_character h hreply).2
  rw [hreply, hbytes, edit, if_neg hback]

end Console

def Typeable (s : String) : Prop :=
  forall c, c ∈ s.toList -> 0x20 <= c.toNat ∧ c.toNat <= 0x7E

theorem Typeable.append {s t : String} (hs : Typeable s) (ht : Typeable t) : Typeable (s ++ t) := by
  intro c hmem
  rw [String.toList_append] at hmem
  rcases List.mem_append.mp hmem with hfirst | hsecond
  · exact hs c hfirst
  · exact ht c hsecond

theorem Typeable.bytes {s : String} (h : Typeable s) :
    Text.bytesOf s = s.toList.map fun c => c.toNat.toUInt8 :=
  Text.bytesOf_ascii fun c hmem => Nat.lt_succ_of_le (Nat.le_trans (h c hmem).2 (by lia))

theorem Typeable.printable {s : String} (h : Typeable s) {byte : UInt8}
    (hmem : byte ∈ Text.bytesOf s) : TerminalRow.Printable byte := by
  rw [h.bytes] at hmem
  rcases List.mem_map.mp hmem with ⟨c, hc, rfl⟩
  rcases h c hc with ⟨hlow, hhigh⟩
  have hbyte : c.toNat.toUInt8.toNat = c.toNat := by
    rw [UInt8.toNat_ofNat', Nat.mod_eq_of_lt (by lia)]
  exact ⟨UInt8.le_iff_toNat_le.mpr (by rw [hbyte]; exact hlow),
    UInt8.le_iff_toNat_le.mpr (by rw [hbyte]; exact hhigh)⟩

theorem Typeable.read {s : String} (h : Typeable s) :
    (Text.bytesOf s).map Serial.read = s.toList := by
  have hchar (c : Char) (hmem : c ∈ s.toList) :
      (Serial.read ∘ fun c => c.toNat.toUInt8) c = c := by
    apply Char.toNat_inj.mp
    rw [Function.comp_apply, LineEditor.read_toNat, UInt8.toNat_ofNat',
      Nat.mod_eq_of_lt (Nat.lt_of_le_of_lt (h c hmem).2 (by lia))]
  rw [h.bytes, List.map_map, List.map_congr_left hchar, List.map_id']

namespace Desk

open LineEditor

variable {profile : Profile} {initrd : Initrd} {desk : Desk}

def setLine (self : Desk) (line : List Char) : Desk :=
  { self with console := self.console.setBuffer line }

theorem step_serial {byte : UInt8} {console : Console} {bytes : List UInt8}
    (h : desk.console.reply profile initrd byte = .ok (console, bytes)) :
    (machine profile initrd).step desk (.serial byte) =
      .ok ({ desk with console := console }, bytes) :=
  Outcome.bind_eq_ok_iff.mpr ⟨_, h, rfl⟩

theorem run_printables (profile : Profile) (initrd : Initrd) (desk : Desk) {bytes : List UInt8}
    (h : forall byte, byte ∈ bytes -> TerminalRow.Printable byte) :
    (machine profile initrd).run desk (bytes.map .serial) =
      .ok (desk.setLine (desk.console.shell.buffer ++ bytes.map Serial.read),
        bytes.map fun byte => [byte]) := by
  induction bytes generalizing desk with
  | nil =>
      rw [List.map_nil, List.map_nil, List.append_nil]
      rfl
  | cons byte rest ih =>
      have hstep := step_serial
        (Console.reply_printable profile initrd desk.console (h byte List.mem_cons_self))
      have hrest := ih (desk.setLine (desk.console.shell.buffer ++ [Serial.read byte]))
        fun other hmem => h other (List.mem_cons_of_mem byte hmem)
      have hline : desk.console.shell.buffer ++ (byte :: rest).map Serial.read =
          desk.console.shell.buffer ++ [Serial.read byte] ++ rest.map Serial.read := by
        rw [List.map_cons, List.append_assoc, List.singleton_append]
      rw [hline]
      exact Machine.run_cons_eq_ok_iff.mpr ⟨_, _, _, hstep, hrest, rfl⟩

theorem flatten_echo (bytes : List UInt8) : (bytes.map fun byte => [byte]).flatten = bytes := by
  induction bytes with
  | nil => rfl
  | cons byte rest ih => rw [List.map_cons, List.flatten_cons, ih, List.singleton_append]

theorem run_line {line text : String} {after : Console} (hline : Typeable line)
    (hempty : desk.console.shell.buffer = [])
    (hexecute : Console.execute profile initrd (desk.console.setBuffer line.toList)
      (inputOf line.toList).1 (inputOf line.toList).2 = .ok (after, text)) :
    exists answers, (machine profile initrd).run desk (Kernel.typing (line ++ "\x0d")) =
        .ok ({ desk with console := after.setBuffer [] }, answers) ∧
      answers.flatten = Text.bytesOf line ++ Console.answer after.shell.prompt text := by
  have htyped := run_printables profile initrd desk
    fun byte hmem => hline.printable hmem
  rw [hempty, List.nil_append, hline.read] at htyped
  have hreturn : Serial.read 0x0D = '\r' := rfl
  have hlast : (desk.setLine line.toList).console.reply profile initrd 0x0D =
      .ok (after.setBuffer [], Console.answer after.shell.prompt text) := by
    rw [Console.reply_return hreturn]
    exact Outcome.bind_eq_ok_iff.mpr ⟨_, hexecute, rfl⟩
  have hbytes : Kernel.typing (line ++ "\x0d") =
      (Text.bytesOf line).map .serial ++ [.serial 0x0D] := by
    unfold Kernel.typing
    rw [Text.bytesOf_append, List.map_append]
    rfl
  refine ⟨(Text.bytesOf line).map (fun byte => [byte]) ++
    [Console.answer after.shell.prompt text], ?_, ?_⟩
  · rw [hbytes]
    exact Machine.run_append_eq_ok_iff.mpr ⟨_, _, _, htyped,
      Machine.run_single_eq_ok_iff.mpr ⟨_, step_serial hlast, rfl⟩, rfl⟩
  · rw [List.flatten_append, flatten_echo, List.flatten_singleton]

end Desk

namespace Kernel

open LineEditor Desk

variable {env : Environment} {k : Kernel} {is : List Interrupt}

theorem readelf_typeable : Typeable "readelf " := by
  intro c hmem
  simp only [String.reduceToList, List.mem_cons, List.not_mem_nil, or_false] at hmem
  rcases hmem with rfl | rfl | rfl | rfl | rfl | rfl | rfl | rfl
  all_goals decide

theorem inputOf_readelf (path : String) :
    inputOf ("readelf " ++ path).toList = ("readelf", some path) := by
  rw [String.toList_append]
  change ("readelf", some (String.ofList path.toList)) = ("readelf", some path)
  rw [String.ofList_toList]

/-- A file of the archive that was assembled as an executable: whatever a kernel booted from the
archive has served, the command {lit}`readelf` with its path is answered with the text of
its parts. -/
theorem readelf_shows {count : Nat} {entries : List Ustar.Entry} {etc : Etc}
    (h : Equipped env count entries etc)
    (hsplit : forall entry, entry ∈ entries -> entry.SplitWhenLong)
    (hdistinct : (entries.map Ustar.Entry.fullPath).Nodup)
    (hshort : forall entry, entry ∈ entries -> entry.pathLength <= 100)
    {entry : Ustar.Entry} (hmem : entry ∈ entries) {executable : Elf.Executable}
    (hdata : entry.content.data = executable.bytes) (hpath : Typeable entry.fullPath)
    (hserved : ServedBy env is [] k) (hline : lineOf is = []) :
    exists k', ServedBy env (is ++ typing ("readelf " ++ entry.fullPath ++ "\x0d")) [] k' ∧
      k'.transmitted = k.transmitted ++ Text.bytesOf ("readelf " ++ entry.fullPath) ++
        Console.answer etc.shell.prompt (executable.elf.fmt ++ "\n") := by
  rcases exists_startup h with ⟨startup, _, hinitrd, _, hshell, _⟩
  rcases simulates_of_served startup hserved with ⟨_, desk, answers, hdesk, hholds, htransmitted⟩
  have hafter := run_after hdesk
  have hbuffer : desk.console.shell.buffer = [] := by
    rw [hafter.shell, show startup.desk.console.shell.buffer = [] from new_buffer startup.shell_eq]
    exact hline
  have hprompt : desk.console.shell.prompt = etc.shell.prompt := by
    rw [hafter.shell, <- hshell]
    rfl
  have hlookup := (Initrd.lookupCorrect_of_short hsplit hdistinct hshort).found entry hmem
  rw [hdata] at hlookup
  have helf : Elf.new env.profile startup.initrd entry.fullPath = .ok executable.elf := by
    rw [hinitrd]
    exact executable.new_bytes env.profile hlookup
  have hexecute : Console.execute env.profile startup.initrd
      (desk.console.setBuffer ("readelf " ++ entry.fullPath).toList)
      (inputOf ("readelf " ++ entry.fullPath).toList).1
      (inputOf ("readelf " ++ entry.fullPath).toList).2 =
        .ok (desk.console.setBuffer ("readelf " ++ entry.fullPath).toList,
          executable.elf.fmt ++ "\n") := by
    rw [inputOf_readelf]
    exact Outcome.bind_eq_ok_iff.mpr ⟨_, helf, rfl⟩
  rcases run_line (readelf_typeable.append hpath) hbuffer hexecute with
    ⟨more, hmore, hflatten⟩
  rcases served_of_run startup (Machine.run_append_eq_ok_iff.mpr
    ⟨desk, answers, more, hdesk, hmore, rfl⟩) with ⟨k', hserved', _, htransmitted'⟩
  refine ⟨k', hserved', ?_⟩
  have hbytes : answers.flatten ++ more.flatten = answers.flatten ++
      (Text.bytesOf ("readelf " ++ entry.fullPath) ++
        Console.answer etc.shell.prompt (executable.elf.fmt ++ "\n")) := by
    rw [hflatten, <- hprompt]
    rfl
  rw [htransmitted', htransmitted, List.flatten_append, hbytes]
  simp only [List.append_assoc]

theorem init_typeable : Typeable "initrd/bin/init" := by
  intro c hmem
  simp only [String.reduceToList, List.mem_cons, List.not_mem_nil, or_false] at hmem
  rcases hmem with
    rfl | rfl | rfl | rfl | rfl | rfl | rfl | rfl | rfl | rfl | rfl | rfl | rfl | rfl | rfl
  all_goals decide

theorem whole_unprefixed {entry : Ustar.Entry} (hmem : entry ∈ wholeEntries) :
    entry.namePrefix.value = "" := by
  have hall : wholeEntries.map (fun entry => entry.namePrefix.value) = List.replicate 10 "" := rfl
  have hvalue := List.mem_map_of_mem (f := fun entry => entry.namePrefix.value) hmem
  rw [hall] at hvalue
  exact (List.mem_replicate.mp hvalue).2

theorem whole_paths : wholeEntries.map Ustar.Entry.fullPath =
    [Font.normalPath, Font.boldPath, "initrd/usr/share/images/logo.ppm",
      "initrd/usr/share/images/neuro.ppm", "initrd/usr/share/images/evil.ppm",
      "initrd/etc/hostname", "initrd/etc/passwd", "initrd/etc/group", "initrd/etc/motd",
      "initrd/bin/init"] :=
  rfl

theorem whole_short {entry : Ustar.Entry} (hmem : entry ∈ wholeEntries) :
    entry.pathLength <= 100 := by
  have hname : entry.fullPath = entry.name.value := if_pos (whole_unprefixed hmem)
  unfold Ustar.Entry.pathLength
  rw [hname]
  exact entry.name.fits

theorem whole_distinct : (wholeEntries.map Ustar.Entry.fullPath).Nodup := by
  rw [whole_paths]
  simp [Font.normalPath, Font.boldPath]

theorem readelf_shows_sample : exists k k', ServedBy whole [] [] k ∧
    ServedBy whole (typing ("readelf " ++ "initrd/bin/init" ++ "\x0d")) [] k' ∧
    k'.transmitted = k.transmitted ++ Text.bytesOf ("readelf " ++ "initrd/bin/init") ++
      Console.answer rootEtc.shell.prompt (Elf.sampleExecutable.elf.fmt ++ "\n") := by
  rcases whole_startup with ⟨startup, _⟩
  have hserved : ServedBy whole [] [] startup.booted :=
    ⟨[], startup.booted, run_boot startup, .nothing⟩
  have hmem : plainEntry init_name Elf.sampleExecutable.bytes init_size ∈ wholeEntries :=
    List.mem_append_right _ (by simp)
  rcases readelf_shows whole_equipped (fun entry h => fun hne => absurd (whole_unprefixed h) hne)
    whole_distinct (fun entry h => whole_short h) hmem rfl init_typeable hserved rfl with
    ⟨k', hserved', htransmitted⟩
  exact ⟨startup.booted, k', hserved, hserved', htransmitted⟩

end Kernel

end NeurOS
