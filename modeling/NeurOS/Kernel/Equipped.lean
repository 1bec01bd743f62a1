import NeurOS.Elf.Assembly
import NeurOS.Kernel.Panics
import NeurOS.Kernel.Refinement
import NeurOS.Shell.Account
import NeurOS.Vga.Opening

/-!
# Booting from an archive

What the archive of the ramdisk and the hardware have to offer for the boot sequence to
reach its end, and what the log and the serial port then hold, down to the last byte.
-/

namespace NeurOS

open Foundation

namespace Ustar

def initrdOf (entries : List Entry) : Initrd where
  files := entries.map Initrd.fileOf

end Ustar

namespace Kernel

/-- The answers of the hardware, and an archive in memory with the font, the three images and the
files of the shell. -/
structure Equipped (env : Environment) (count : Nat) (entries : List Ustar.Entry)
    (etc : Etc) : Prop where
  memory : env.memory = .ok ()
  cpus : env.cpus = some count
  archive : exists address more blocks, env.modules = some (address :: more) ∧ 0 < blocks ∧
    env.ram.Holds address (Ustar.archive entries blocks) ∧
    address + (Ustar.archive entries blocks).length <= 2 ^ 64
  passes : entries.length < env.passes
  listed : forall entry, entry ∈ entries -> Initrd.File.Listed env.profile entry
  font : exists font, Font.new (Ustar.initrdOf entries) Font.normalPath = .ok font
  screen : exists framebuffer more logo neuro evil,
    env.framebuffers = some (framebuffer :: more) ∧
    640 <= framebuffer.width ∧ 480 <= framebuffer.height ∧
    Intro.Loads env.profile (Ustar.initrdOf entries) logo neuro evil ∧
    logo.header.width <= framebuffer.width ∧ evil.header.width <= framebuffer.width ∧
    Intro.Fits framebuffer.width framebuffer.height logo.header neuro.header evil.header
  build : Intro.Labelled env.build
  etc : etc.StoredIn (Ustar.initrdOf entries)
  loopback : env.loopback = 0xAE
  star : env.star = .ok ()

section Equipped

variable {env : Environment} {count : Nat} {entries : List Ustar.Entry} {etc : Etc}

def entryRecords (profile : Profile) (entries : List Ustar.Entry) : List Log :=
  entries.map fun entry => ⟨.trace, Initrd.File.line profile (Initrd.fileOf entry)⟩

theorem walked_of_equipped (h : Equipped env count entries etc) (logger : Logger) :
    walked env logger =
      some (.ok (Ustar.initrdOf entries, logger.record (entryRecords env.profile entries))) := by
  rcases h.archive with ⟨address, more, blocks, hmodules, hblocks, hholds, hfits⟩
  unfold walked
  rw [hmodules]
  exact Initrd.new_archive more logger hblocks hholds hfits
    (fun entry hmem => Initrd.File.display_of_listed (h.listed entry hmem)) h.passes

theorem opened_of_equipped (h : Equipped env count entries etc) :
    exists font vga opened, Font.new (Ustar.initrdOf entries) Font.normalPath = .ok font ∧
      newVga env font = .ok vga ∧
      (Intro.initializeScreen env.profile (Ustar.initrdOf entries) env.build vga).result =
        .ok opened := by
  rcases h.font with ⟨font, hfont⟩
  rcases h.screen with ⟨framebuffer, more, logo, neuro, evil, hframebuffers, hwidth, hheight,
    hloads, hlogo, hevil, hfits⟩
  let vga : Vga :=
    { cursor := { x := 0, y := 0, fg := Color.white, bg := Color.black }
      font := font
      height := framebuffer.height
      pitch := framebuffer.pitch
      width := framebuffer.width }
  have hvga : newVga env font = .ok vga := by
    unfold newVga
    rw [hframebuffers]
    rfl
  have hcompletes : (Intro.initializeScreen env.profile (Ustar.initrdOf entries) env.build
      vga).Completes (NeurOS.Pixel.On vga.width vga.height) :=
    Intro.initializeScreen_completes h.build hwidth hheight hloads hlogo hevil hfits
  rcases hcompletes.1 with ⟨opened, hopened⟩
  exact ⟨font, vga, opened, hfont, hvga, hopened⟩

theorem exists_startup (h : Equipped env count entries etc) :
    exists startup : Startup env, startup.count = count ∧
      startup.initrd = Ustar.initrdOf entries ∧ startup.lines = entryRecords env.profile entries ∧
      startup.shell = etc.shell ∧ startup.texts = [etc.motd ++ "\n", etc.shell.prompt] := by
  rcases opened_of_equipped h with ⟨font, vga, opened, hfont, hvga, hopened⟩
  have hwalk : walked env (Logger.new.record [coresRecord count]) =
      some (.ok (Ustar.initrdOf entries,
        Logger.new.record (coresRecord count :: entryRecords env.profile entries))) :=
    walked_of_equipped h _
  let startup : Startup env :=
    { count := count
      initrd := Ustar.initrdOf entries
      lines := entryRecords env.profile entries
      font := font
      vga := vga
      opened := opened
      shell := etc.shell
      texts := [etc.motd ++ "\n", etc.shell.prompt]
      memory := h.memory
      cpus := h.cpus
      walk := hwalk
      font_eq := hfont
      vga_eq := hvga
      opened_eq := hopened
      shell_eq := Etc.new_eq h.etc
      texts_eq := Etc.display_eq h.etc
      loopback := h.loopback
      star := h.star }
  exact ⟨startup, rfl, rfl, rfl, rfl, rfl⟩

/-- A kernel with such an archive boots: on its way it neither panics nor waits, and at its end
it has logged the entries of the archive in their order and has greeted on the serial
port as the first user. -/
theorem boots_from_archive (h : Equipped env count entries etc) :
    exists k, (processor env).Reaches (fun _ _ => True) (started env) ⟨k, [⟨.done (), []⟩]⟩ ∧
      (forall code held s, (processor env).Reaches (fun _ _ => True) (started env)
        ⟨s, [⟨code, held⟩]⟩ -> code = .done () ∨ code.run [] held s = .done () [] k) ∧
      k.logger.getLogs = coresRecord count :: entryRecords env.profile entries ++
        loadedRecord (Ustar.initrdOf entries) :: (Scheduler.new 100).2 ++ [successRecord] ∧
      k.transmitted = Serial.writeStr (etc.motd ++ "\n") ++
        Serial.writeStr (Shell.promptFor etc.user.username.val (Text.trimEnd etc.hostname)) ∧
      k.initrd = some (Ustar.initrdOf entries) ∧ k.serialConsole = some etc.shell ∧
      k.scheduler = some (Scheduler.initialized 100) := by
  rcases exists_startup h with ⟨startup, rfl, hinitrd, hlines, hshell, htexts⟩
  have hboot := run_boot startup
  refine ⟨startup.booted, ?_, ?_, ?_, ?_, ?_, ?_, rfl⟩
  · exact Processor.reaches_of_served ⟨[], startup.booted, hboot, .nothing⟩
  · intro code held s hreaches
    rw [← hboot]
    exact Processor.alone_of_reaches hreaches
  · rw [← hlines, ← hinitrd]
    rfl
  · show startup.texts.flatMap Serial.writeStr = _
    rw [htexts, List.flatMap_cons, List.flatMap_singleton]
    rfl
  · rw [← hinitrd]
    rfl
  · rw [← hshell]
    rfl

end Equipped

/-!
# A whole ramdisk
-/

structure EntryName (s : String) : Prop where
  fits : (Text.bytesOf s).length <= 100
  noNull : '\x00' ∉ s.toList
  nonempty : s ≠ ""

def plainEntry {s : String} (name : EntryName s) (data : List UInt8)
    (size : data.length < 2 ^ 32) : Ustar.Entry :=
  { Initrd.File.plain Initrd.fileMode with
    name := ⟨s, name.fits, name.noNull⟩
    nonempty := name.nonempty
    content := .regular data size }

theorem logo_name : EntryName "initrd/usr/share/images/logo.ppm" := by
  exact ⟨by decide, by simp, by simp⟩

theorem neuro_name : EntryName "initrd/usr/share/images/neuro.ppm" := by
  exact ⟨by decide, by simp, by simp⟩

theorem evil_name : EntryName "initrd/usr/share/images/evil.ppm" := by
  exact ⟨by decide, by simp, by simp⟩

theorem hostname_name : EntryName "initrd/etc/hostname" := by
  exact ⟨by decide, by simp, by simp⟩

theorem passwd_name : EntryName "initrd/etc/passwd" := by
  exact ⟨by decide, by simp, by simp⟩

theorem group_name : EntryName "initrd/etc/group" := by
  exact ⟨by decide, by simp, by simp⟩

theorem motd_name : EntryName "initrd/etc/motd" := by
  exact ⟨by decide, by simp, by simp⟩

theorem init_name : EntryName "initrd/bin/init" := by
  exact ⟨by decide, by simp, by simp⟩

theorem init_size : Elf.sampleExecutable.bytes.length < 2 ^ 32 := by
  rw [Elf.Executable.bytes_length]
  decide

theorem blackPoint_size : (Intro.blackFile Image.point).length < 2 ^ 32 := by
  decide

theorem hostname_size : (Text.bytesOf (rootEtc.hostname ++ "\n")).length < 2 ^ 32 := by
  decide

theorem passwd_size : (Text.bytesOf rootEtc.passwd).length < 2 ^ 32 := by
  decide

theorem group_size : (Text.bytesOf rootEtc.groupFile).length < 2 ^ 32 := by
  decide

theorem motd_size : (Text.bytesOf rootEtc.motd).length < 2 ^ 32 := by
  decide

theorem blankFont_size : Screen.blankFont.length < 2 ^ 32 := by
  rw [Screen.blankFont_length]
  lia

def fontEntry (name : Ustar.FieldText 100) (nonempty : name.value ≠ "") : Ustar.Entry :=
  { Initrd.File.plain Initrd.fileMode with
    name := name
    nonempty := nonempty
    content := .regular Screen.blankFont blankFont_size }

def fontEntries : List Ustar.Entry :=
  [fontEntry ⟨Font.normalPath, by decide, by decide⟩ (by decide),
    fontEntry ⟨Font.boldPath, by decide, by decide⟩ (by decide)]

def wholeEntries : List Ustar.Entry :=
  fontEntries ++
    [plainEntry logo_name (Intro.blackFile Image.point) blackPoint_size,
      plainEntry neuro_name (Intro.blackFile Image.point) blackPoint_size,
      plainEntry evil_name (Intro.blackFile Image.point) blackPoint_size,
      plainEntry hostname_name (Text.bytesOf (rootEtc.hostname ++ "\n")) hostname_size,
      plainEntry passwd_name (Text.bytesOf rootEtc.passwd) passwd_size,
      plainEntry group_name (Text.bytesOf rootEtc.groupFile) group_size,
      plainEntry motd_name (Text.bytesOf rootEtc.motd) motd_size,
      plainEntry init_name Elf.sampleExecutable.bytes init_size]

def whole : Environment where
  profile := .dev
  build := { version := "0.1.0", commit := "0000000", authors := "Theomund" }
  memory := .ok ()
  cpus := some 1
  framebuffers := some [{ height := 800, pitch := 5120, width := 1280 }]
  modules := some [4096]
  ram := Ram.load 4096 (Ustar.archive wholeEntries 2)
  passes := 11
  loopback := 0xAE
  star := .ok ()
  info := fun _ => "panicked at src/shell.rs"

theorem encode_length_le (entry : Ustar.Entry) : (Ustar.encode entry).length <= 2 ^ 33 := by
  have hsize := entry.content.size_lt
  rw [Initrd.encode_length]
  unfold Initrd.divCeil blockSize
  lia

theorem archive_length_le (entries : List Ustar.Entry) (blocks : Nat) :
    (Ustar.archive entries blocks).length <= entries.length * 2 ^ 33 + blocks * blockSize := by
  unfold Ustar.archive
  rw [List.length_append, List.length_replicate]
  apply Nat.add_le_add_right
  induction entries with
  | nil => simp
  | cons entry rest ih =>
      have hentry := encode_length_le entry
      rw [List.flatMap_cons, List.length_append, List.length_cons, Nat.succ_mul]
      lia

theorem whole_fits : 4096 + (Ustar.archive wholeEntries 2).length <= 2 ^ 64 := by
  have hle := archive_length_le wholeEntries 2
  have hlength : wholeEntries.length = 10 := rfl
  have hbound : 4096 + (10 * 2 ^ 33 + 2 * blockSize) <= 2 ^ 64 := by
    unfold blockSize
    lia
  rw [hlength] at hle
  exact Nat.le_trans (Nat.add_le_add_left hle 4096) hbound

theorem whole_loads : Intro.Loads .dev (Ustar.initrdOf wholeEntries)
    (Intro.black Image.point) (Intro.black Image.point) (Intro.black Image.point) := by
  have hsize : Image.point.height * Image.point.width * 3 < 2 ^ 64 := by simp [Image.point]
  have hlogo : "initrd/usr/share/images/logo" ++ ".ppm" =
      "initrd/usr/share/images/logo.ppm" := rfl
  have hneuro : "initrd/usr/share/images/neuro" ++ ".ppm" =
      "initrd/usr/share/images/neuro.ppm" := rfl
  have hevil : "initrd/usr/share/images/evil" ++ ".ppm" =
      "initrd/usr/share/images/evil.ppm" := rfl
  constructor
  · rw [← hlogo]
    apply Intro.new_black Image.point_allocates hsize
    rw [hlogo]
    rfl
  · rw [← hneuro]
    apply Intro.new_black Image.point_allocates hsize
    rw [hneuro]
    rfl
  · rw [← hevil]
    apply Intro.new_black Image.point_allocates hsize
    rw [hevil]
    rfl

theorem whole_narrow : (Intro.black Image.point).header.width <= 1280 := by
  simp [Intro.black, Image.painted, Image.point]

theorem whole_fitting : Intro.Fits 1280 800 (Intro.black Image.point).header
    (Intro.black Image.point).header (Intro.black Image.point).header := by
  constructor <;> simp [Intro.black, Image.painted, Image.point]

theorem zeros_shortName : Intro.ShortName "0000000" := by
  constructor <;> simp

theorem whole_listed {entry : Ustar.Entry} (h : entry ∈ wholeEntries) :
    entry.mode = Initrd.fileMode ∧ entry.mtime = Initrd.epoch := by
  simp only [wholeEntries, fontEntries, List.cons_append, List.nil_append, List.mem_cons,
    List.not_mem_nil, or_false] at h
  rcases h with rfl | rfl | rfl | rfl | rfl | rfl | rfl | rfl | rfl | rfl <;> exact ⟨rfl, rfl⟩

theorem whole_equipped : Equipped whole 1 wholeEntries rootEtc where
  memory := rfl
  cpus := rfl
  archive := ⟨4096, [], 2, rfl, Nat.two_pos, Ram.load_holds 4096 _, whole_fits⟩
  passes := Nat.lt_succ_self 10
  listed := by
    intro entry hmem
    rcases whole_listed hmem with ⟨hmode, hmtime⟩
    unfold Initrd.File.Listed
    rw [hmode, hmtime]
    refine ⟨?_, Initrd.File.converts_zero _⟩
    show 64 <= 0o644
    lia
  font := ⟨_, Screen.new_of_blankFont rfl⟩
  screen := ⟨{ height := 800, pitch := 5120, width := 1280 }, [], _, _, _, rfl, by simp, by simp,
    whole_loads, whole_narrow, whole_narrow, whole_fitting⟩
  build := Intro.labelled_buildOf zeros_shortName
  etc := ⟨rfl, rfl, rfl, rfl⟩
  loopback := rfl
  star := rfl

theorem boots_from_archive_sample : exists k,
    (processor whole).Reaches (fun _ _ => True) (started whole) ⟨k, [⟨.done (), []⟩]⟩ ∧
      (forall code held s, (processor whole).Reaches (fun _ _ => True) (started whole)
        ⟨s, [⟨code, held⟩]⟩ -> code = .done () ∨ code.run [] held s = .done () [] k) ∧
      k.logger.getLogs = coresRecord 1 :: entryRecords .dev wholeEntries ++
        loadedRecord (Ustar.initrdOf wholeEntries) :: (Scheduler.new 100).2 ++ [successRecord] ∧
      k.transmitted = Serial.writeStr (rootEtc.motd ++ "\n") ++
        Serial.writeStr
          (Shell.promptFor rootEtc.user.username.val (Text.trimEnd rootEtc.hostname)) ∧
      k.initrd = some (Ustar.initrdOf wholeEntries) ∧ k.serialConsole = some rootEtc.shell ∧
      k.scheduler = some (Scheduler.initialized 100) :=
  boots_from_archive whole_equipped

end Kernel

end NeurOS
