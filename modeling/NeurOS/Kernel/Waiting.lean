import NeurOS.Kernel.Panics
import NeurOS.Kernel.Texts

/-!
# No run waits for ever

Where the ramdisk, the framebuffer and the texts are as the boot sequence and the panic
handler ask for, no state of a run waits for a lock, and every panic is shown with the
log, whatever locks the code that panicked still holds.
-/

namespace NeurOS

open Foundation

namespace Kernel

variable {env : Environment} {held : List Lock} {k : Kernel} {is : List Interrupt}

/-- No run waits for a lock that is held, and every panic gets to the end of the panic handler
with the log on the framebuffer. -/
theorem never_waits (hworks : BootWorks env) {system : System Lock Kernel}
    (hreaches : (processor env).Reaches (Accepts env) (started env) system) :
    Not (Processor.Waits system) ∧
      (forall k p taken below, system = ⟨k, ⟨.panic p, taken⟩ :: below⟩ ->
        Accepts env (.panic p) k -> Not (k.initrd = none ∧ walked env k.logger = none) ->
          exists last, Final env.profile last ∧ (processor env).Reaches (Accepts env) system
            ⟨last, ⟨.done (), [.vga]⟩ :: ⟨.panic p, taken⟩ :: below⟩) ∧
      (forall k p held taken below,
        system = ⟨k, ⟨.done (), held⟩ :: ⟨.panic p, taken⟩ :: below⟩ -> Final env.profile k) := by
  have hdisciplined := Processor.disciplined_reaches (discipline hworks)
    (started_disciplined hworks) hreaches
  refine ⟨Processor.not_waits_of_disciplined hdisciplined, ?_, ?_⟩
  · rintro k p taken below rfl haccepts hwalks
    rcases Processor.broken_of_disciplined hdisciplined with ⟨hbroken, hempty⟩
    rcases run_panicHandler hworks hbroken haccepts with
      ⟨last, hrun, hfinal⟩ | ⟨hinitrd, hwalked, _⟩
    · have htaken : heldBy (⟨.panic p, taken⟩ :: below) = taken := by
        unfold heldBy at hempty ⊢
        rw [List.flatMap_cons, hempty, List.append_nil]
      have harrives : (processor env).Arrives (Accepts env) (⟨.panic p, taken⟩ :: below)
          ⟨k, ⟨panicHandler env p, []⟩ :: ⟨.panic p, taken⟩ :: below⟩
          ((panicHandler env p).run taken [] k) :=
        Processor.arrives htaken (panicHandler env p) [] k
      rw [hrun] at harrives
      exact ⟨last, hfinal, .head (.panics haccepts) harrives⟩
    · exact absurd ⟨hinitrd, hwalked⟩ hwalks
  · rintro k p held taken below rfl
    exact Processor.final_of_disciplined hdisciplined

/-!
# Interrupts ahead of a panic
-/

theorem made_booted (startup : Startup env) : Made startup.initrd startup.booted where
  ramdisk := rfl
  scheduler := ⟨_, rfl, List.cons_ne_nil _ _⟩
  serial := rfl
  serialConsole := ⟨_, rfl⟩
  vga := ⟨_, rfl, fun _ hshell => nomatch hshell⟩
  shell := ⟨_, _, startup.shell_eq, startup.texts_eq⟩
  vgaConsole _ hshell := nomatch hshell

def Greets (startup : Startup env) : Prop :=
  forall text, text ∈ startup.texts -> Vga.legible startup.initrd text.toList = true

theorem promptLegible_of_greets {startup : Startup env} (h : Greets startup)
    (hramdisk : k.initrd = some startup.initrd) : PromptLegible k := by
  intro initrd shell texts hinitrd hshell htexts
  rw [hramdisk] at hinitrd
  cases hinitrd
  rw [startup.shell_eq] at hshell
  cases hshell
  rw [startup.texts_eq] at htexts
  cases htexts
  exact h

/-- A panic needs a carriage return. -/
theorem run_handler_done {initrd : Initrd} (hmade : Made initrd k) {i : Interrupt}
    (hprompt : i = .keyboard Screen.enter -> PromptLegible k) (hreturn : i ≠ .serial 0x0D) :
    exists k', (handler env i).run [] [] k = .done () [] k' ∧ Made initrd k' := by
  cases i with
  | timer => exact run_timerHandler hmade
  | keyboard scanCode =>
      exact run_keyboardHandler hmade scanCode
        fun henter => hprompt (congrArg Interrupt.keyboard henter)
  | serial byte =>
      rcases run_serialHandler hmade byte with hrun | ⟨hread, _⟩
      · exact hrun
      · exact absurd (congrArg Interrupt.serial ((LineEditor.read_eq_return_iff byte).mp hread))
          hreturn

theorem exists_served {startup : Startup env} (hgreets : Greets startup)
    (hreturn : .serial 0x0D ∉ is) :
    exists k, Processor.Served (processor env) (Accepts env) (boot env) fresh is [] k ∧
      Made startup.initrd k := by
  induction is using List.reverseRecOn with
  | nil => exact ⟨startup.booted, ⟨[], startup.booted, run_boot startup, .nothing⟩,
      made_booted startup⟩
  | append_singleton is i ih =>
      rw [List.mem_append, not_or, List.mem_singleton] at hreturn
      rcases ih hreturn.1 with ⟨k, hserved, hmade⟩
      have hprompt : PromptLegible k := promptLegible_of_greets hgreets hmade.ramdisk
      rcases run_handler_done hmade (fun _ => hprompt) (Ne.symm hreturn.2) with
        ⟨k', hrun, hmade'⟩
      exact ⟨k', Processor.served_next hserved (fun _ => hprompt) hrun, hmade'⟩

theorem servedBy_of_served {accepts : Event Interrupt -> Kernel -> Prop}
    (h : Processor.Served (processor env) accepts (boot env) fresh is held k) :
    ServedBy env is held k :=
  Processor.served_mono (fun _ _ _ => trivial) h

theorem line_of_served {startup : Startup env} {desk : Desk}
    (h : Desk.After startup.desk.console is desk.console) :
    desk.console.shell.buffer = Desk.lineOf is := by
  rw [h.shell, show startup.desk.console.shell.buffer = [] from new_buffer startup.shell_eq]
  rfl

theorem run_return_done (startup : Startup env) (h : ServedBy env is [] k)
    (hmade : Made startup.initrd k)
    (hcommand : LineEditor.commandOf (Desk.lineOf is) ≠ "readelf") :
    exists k', (handler env (.serial 0x0D)).run [] [] k = .done () [] k' ∧
      Made startup.initrd k' := by
  rcases after_of_served startup h with ⟨desk, hholds, hafter⟩
  rcases hmade.scheduler with ⟨scheduler, hscheduler, hqueue⟩
  rw [hholds.scheduler] at hscheduler
  cases hscheduler
  rcases Console.reply_ok_or_readelf env.profile startup.initrd hqueue 0x0D with
    ⟨after, bytes, hreply, _⟩ | ⟨_, _, _, hreadelf⟩
  · have hstep : (Desk.machine env.profile startup.initrd).step desk (.serial 0x0D) =
        .ok ({ desk with console := after }, bytes) :=
      Outcome.bind_eq_ok_iff.mpr ⟨_, hreply, rfl⟩
    rcases Ending.done_of_follows (follows_handler env hholds (.serial 0x0D)) hstep with
      ⟨_, _, _, hdone, _⟩
    rcases run_serialHandler hmade 0x0D with hrun | ⟨_, p, hrun⟩
    · exact hrun
    · have hboth := hdone.symm.trans hrun
      cases hboth
  · rw [line_of_served hafter] at hreadelf
    exact absurd hreadelf hcommand

theorem run_missing (startup : Startup env) (h : ServedBy env is [] k)
    (hmade : Made startup.initrd k) (hcommand : LineEditor.commandOf (Desk.lineOf is) = "readelf")
    {p : Panic} (hmissing : Elf.new env.profile startup.initrd
      (LineEditor.argumentOf (Desk.lineOf is)) = .error p) :
    (handler env (.serial 0x0D)).run [] [] k = .panicked p [.serial, .serialConsole]
      (k.transmit (Serial.writeStr (Ansi.normal ++ "\n"))) := by
  rcases after_of_served startup h with ⟨desk, hholds, hafter⟩
  have hline := line_of_served hafter
  have hexecute : desk.console.execute env.profile startup.initrd
      (LineEditor.inputOf desk.console.shell.buffer).1
      (LineEditor.inputOf desk.console.shell.buffer).2 = .error p := by
    rw [LineEditor.inputOf_command, hline, hcommand]
    show Elf.new env.profile startup.initrd ((LineEditor.inputOf (Desk.lineOf is)).2.getD "") >>=
      _ = .error p
    rw [LineEditor.inputOf_argument, hmissing]
    rfl
  have hstep : (Desk.machine env.profile startup.initrd).step desk (.serial 0x0D) =
      .error p := by
    have hreply : desk.console.reply env.profile startup.initrd 0x0D = .error p := by
      rw [Console.reply_return rfl, hexecute]
      rfl
    show desk.console.reply env.profile startup.initrd 0x0D >>= _ = .error p
    rw [hreply]
    rfl
  have hfollows := follows_handler env hholds (.serial 0x0D)
  rcases Ending.panicked_of_follows hfollows hstep with ⟨taken, k', hpanics⟩
  rcases run_serialHandler hmade 0x0D with ⟨k'', hrun, _⟩ | ⟨_, p', hrun⟩
  · have hboth := hpanics.symm.trans hrun
    cases hboth
  · have hboth := hpanics.symm.trans hrun
    cases hboth
    exact hpanics

theorem panicPrintable_of_records {initrd : Initrd} {p : Panic} (hinitrd : k.initrd = some initrd)
    (hfonts : Grid.switchable initrd = fun _ => true) (hinfo : Letter.PlainText (env.info p))
    (hrecords : PlainLog k.logger.getLogs) : PanicPrintable env p k := by
  have hmessage : (panicLog env p).Plain :=
    Letter.plainText_append_iff.mpr ⟨Letter.plainText_of_all rfl, hinfo⟩
  unfold PanicPrintable
  rw [hinitrd]
  intro text htext
  apply Vga.legible_of_switchable hfonts
  rcases List.mem_cons.mp htext with rfl | hshown
  · exact Vga.inFont_of_all (by decide +kernel)
  · rcases List.mem_map.mp hshown with ⟨record, hrecord, rfl⟩
    have hall : PlainLog (k.logger.log (panicLog env p).level
        (panicLog env p).message).getLogs :=
      plainLog_append hrecords (plainLog_single hmessage)
    exact inFont_fmt (hall record hrecord)

/-!
# A missing executable
-/

theorem bootWorks_of_equipped {count : Nat} {entries : List Ustar.Entry} {etc : Etc}
    (h : Equipped env count entries etc) : BootWorks env where
  memory := h.memory
  walk := by simp [walked_of_equipped h]
  framebuffer logger initrd logger' hwalked := by
    rw [walked_of_equipped h] at hwalked
    cases hwalked
    rcases opened_of_equipped h with ⟨font, vga, opened, hfont, hvga, hopened⟩
    exact ⟨font, vga, hfont, hvga, fun _ => ⟨opened, hopened⟩⟩

theorem whole_switchable :
    Grid.switchable (Ustar.initrdOf wholeEntries) = fun _ => true :=
  Screen.switchable_of_blankFonts rfl rfl

theorem whole_names : wholeEntries.map (fun entry => entry.name.value) =
    [Font.normalPath, Font.boldPath, "initrd/usr/share/images/logo.ppm",
      "initrd/usr/share/images/neuro.ppm", "initrd/usr/share/images/evil.ppm",
      "initrd/etc/hostname", "initrd/etc/passwd", "initrd/etc/group", "initrd/etc/motd",
      "initrd/bin/init"] :=
  rfl

theorem whole_owners {entry : Ustar.Entry} (h : entry ∈ wholeEntries) :
    entry.username = Initrd.rootName ∧ entry.group = Initrd.rootName := by
  simp only [wholeEntries, fontEntries, List.cons_append, List.nil_append, List.mem_cons,
    List.not_mem_nil, or_false] at h
  rcases h with rfl | rfl | rfl | rfl | rfl | rfl | rfl | rfl | rfl | rfl <;> exact ⟨rfl, rfl⟩

theorem whole_lines : PlainLog (entryRecords .dev wholeEntries) := by
  intro record hrecord
  rcases List.mem_map.mp hrecord with ⟨entry, hentry, rfl⟩
  have hnames : forall name, name ∈ wholeEntries.map (fun entry => entry.name.value) ->
      Letter.PlainText name := by
    rw [whole_names]
    intro name hname
    apply Letter.plainText_of_all
    revert name
    decide +kernel
  have hroot : Letter.PlainText Initrd.rootName.value := Letter.plainText_of_all rfl
  rcases whole_owners hentry with ⟨huser, hgroup⟩
  apply Initrd.File.plainText_display
    (Initrd.File.display_of_listed (whole_equipped.listed entry hentry))
  · show Letter.PlainText entry.username.value
    rw [huser]
    exact hroot
  · show Letter.PlainText entry.group.value
    rw [hgroup]
    exact hroot
  · exact hnames _ (List.mem_map_of_mem hentry)

theorem whole_greets : exists startup : Startup whole, Greets startup ∧
    startup.initrd = Ustar.initrdOf wholeEntries ∧
    startup.lines = entryRecords .dev wholeEntries := by
  rcases exists_startup whole_equipped with ⟨startup, _, hinitrd, hlines, _, htexts⟩
  refine ⟨startup, ?_, hinitrd, hlines⟩
  intro text htext
  rw [htexts] at htext
  rw [hinitrd]
  apply Vga.legible_of_switchable whole_switchable
  rcases List.mem_pair.mp htext with rfl | rfl <;> exact Vga.inFont_of_all (by decide +kernel)

def missing : List Interrupt :=
  .timer :: .keyboard Screen.enter :: typing "readelf x"

theorem missing_panics : exists k panicked,
    Processor.Served (processor whole) (Accepts whole) (boot whole) fresh missing [] k ∧
    Idle k ∧
    (handler whole (.serial 0x0D)).run [] [] k =
      .panicked .unwrapNone [.serial, .serialConsole] panicked ∧
    panicked.initrd = some (Ustar.initrdOf wholeEntries) ∧ panicked.logger = k.logger ∧
    PanicPrintable whole .unwrapNone panicked := by
  rcases whole_greets with ⟨startup, hgreets, hinitrd, hlines⟩
  have hreturn : (.serial 0x0D : Interrupt) ∉ missing := by
    decide +kernel
  rcases exists_served hgreets hreturn with ⟨k, hserved, hmade⟩
  have hservedBy := servedBy_of_served hserved
  have hmissing : Elf.new .dev startup.initrd "x" = .error .unwrapNone := by
    rw [hinitrd]
    rfl
  have hramdisk : k.initrd = some (Ustar.initrdOf wholeEntries) := by
    rw [hmade.ramdisk, hinitrd]
  have hrecords : PlainLog k.logger.getLogs :=
    plainLog_of_served startup (by rw [hlines]; exact whole_lines) hservedBy
  let panicked := k.transmit (Serial.writeStr (Ansi.normal ++ "\n"))
  have hprintable : PanicPrintable whole .unwrapNone panicked :=
    panicPrintable_of_records (k := panicked) hramdisk whole_switchable
      (Letter.plainText_of_all rfl) hrecords
  exact ⟨k, panicked, hserved, ⟨_, hmade⟩, run_missing startup hservedBy hmade rfl hmissing,
    hramdisk, rfl, hprintable⟩

theorem handler_panics_iff_sample : exists (startup : Startup whole) (is : List Interrupt)
    (i : Interrupt) (desk : Desk) (answers : List (List UInt8)),
    (Desk.machine .dev startup.initrd).run startup.desk is = .ok (desk, answers) ∧
      (Desk.machine .dev startup.initrd).step desk i = .error .unwrapNone := by
  rcases whole_startup with ⟨startup, _⟩
  rcases missing_panics with ⟨k, panicked, hserved, _, hpanics, _⟩
  have hreaches : (processor whole).Reaches (fun _ _ => True) (started whole)
      ⟨panicked, [⟨.panic .unwrapNone, [.serial, .serialConsole]⟩, ⟨.done (), []⟩]⟩ :=
    Processor.reaches_panic_iff.mpr
      ⟨missing, .serial 0x0D, k, servedBy_of_served hserved, trivial, hpanics⟩
  exact ⟨startup, (handler_panics_iff startup .unwrapNone).mp ⟨panicked, _, [], hreaches⟩⟩

theorem never_waits_sample : exists k panicked last,
    Processor.Served (processor whole) (Accepts whole) (boot whole) fresh missing [] k ∧
    (handler whole (.serial 0x0D)).run [] [] k =
      .panicked .unwrapNone [.serial, .serialConsole] panicked ∧
    Not (Processor.Waits (⟨panicked, [⟨.panic .unwrapNone, [.serial, .serialConsole]⟩,
      ⟨.done (), []⟩]⟩ : System Lock Kernel)) ∧
    Final .dev last ∧
    (processor whole).Reaches (Accepts whole)
      ⟨panicked, [⟨.panic .unwrapNone, [.serial, .serialConsole]⟩, ⟨.done (), []⟩]⟩
      ⟨last, [⟨.done (), [.vga]⟩, ⟨.panic .unwrapNone, [.serial, .serialConsole]⟩,
        ⟨.done (), []⟩]⟩ := by
  rcases missing_panics with ⟨k, panicked, hserved, _, hpanics, hramdisk, _, hprintable⟩
  have hreaches : (processor whole).Reaches (Accepts whole) (started whole)
      ⟨panicked, [⟨.panic .unwrapNone, [.serial, .serialConsole]⟩, ⟨.done (), []⟩]⟩ :=
    Processor.reaches_panic_iff.mpr ⟨missing, .serial 0x0D, k, hserved, nofun, hpanics⟩
  rcases never_waits (bootWorks_of_equipped whole_equipped) hreaches with ⟨hfree, hshows, _⟩
  rcases hshows panicked .unwrapNone _ _ rfl hprintable
    (fun hnone => nomatch hnone.1.symm.trans hramdisk) with ⟨last, hfinal, hlast⟩
  exact ⟨k, panicked, last, hserved, hpanics, hfree, hfinal, hlast⟩

/-!
# A missing image
-/

/-- The fonts alone, on a processor that boots up to the opening screen. -/
def logoless : Environment :=
  { whole with
    framebuffers := some [{ height := 480, pitch := 2560, width := 640 }]
    ram := Ram.load 4096 (Ustar.archive fontEntries 2)
    passes := 3 }

theorem logoless_fits : 4096 + (Ustar.archive fontEntries 2).length <= 2 ^ 64 := by
  have hle := archive_length_le fontEntries 2
  have hlength : fontEntries.length = 2 := rfl
  have hbound : 4096 + (2 * 2 ^ 33 + 2 * blockSize) <= 2 ^ 64 := by
    unfold blockSize
    lia
  rw [hlength] at hle
  exact Nat.le_trans (Nat.add_le_add_left hle 4096) hbound

theorem logoless_walked (logger : Logger) : walked logoless logger =
    some (.ok (Ustar.initrdOf fontEntries,
      logger.record (entryRecords .dev fontEntries))) := by
  have hlisted : forall entry, entry ∈ fontEntries -> Initrd.File.display .dev
      (Initrd.fileOf entry) = .ok (Initrd.File.line .dev (Initrd.fileOf entry)) :=
    fun entry hmem => Initrd.File.display_of_listed
      (whole_equipped.listed entry (List.mem_append_left _ hmem))
  exact Initrd.new_archive [] logger Nat.two_pos (Ram.load_holds 4096 _) logoless_fits hlisted
    (Nat.lt_succ_self 2)

theorem logoless_intro : (Intro.initializeScreen logoless.profile (Ustar.initrdOf fontEntries)
    logoless.build Screen.fontVga).result = .error .unwrapNone := by
  have hlogo : Image.new logoless.profile (Ustar.initrdOf fontEntries)
      "initrd/usr/share/images/logo.ppm" = .error .unwrapNone := rfl
  unfold Intro.initializeScreen Intro.drawAt
  rw [hlogo]
  rfl

theorem logoless_boot : exists k, k.vga = some Screen.fontVga ∧
    (boot logoless).run [] [] fresh = .panicked .unwrapNone [.vga] k := by
  let counted := fresh.setLogger
    (fresh.logger.log .debug s!"Detected that the processor has {1} core(s).")
  have hsmp : (initializeSmp logoless).run [] [] fresh = .done () [] counted :=
    run_initializeSmp rfl
  have hwalked := logoless_walked counted.logger
  let loaded := (counted.setInitrd (Ustar.initrdOf fontEntries)).setLogger
    ((counted.logger.record (entryRecords .dev fontEntries)).log .debug
      s!"Loaded {(Ustar.initrdOf fontEntries).getFiles.length} files from the initial ramdisk.")
  have hinitrd : (initializeInitrd logoless).run [] [] counted = .done () [] loaded :=
    run_initializeInitrd rfl hwalked
  have hscheduler : loaded.scheduler = none := rfl
  rcases run_initializeScheduler hscheduler with ⟨logger, hrun⟩
  let scheduled := (loaded.setLogger logger).setScheduler (Scheduler.initialized 100)
  let drawn := (scheduled.setVga Screen.fontVga).draw (Intro.initializeScreen logoless.profile
    (Ustar.initrdOf fontEntries) logoless.build Screen.fontVga).emitted
  have hintro : (initializeIntro logoless).run [] [] scheduled =
      .panicked .unwrapNone [.vga] drawn := by
    have hnew : newVga logoless Screen.fontVga.font = .ok Screen.fontVga := rfl
    rw [run_initializeIntro (k := scheduled) rfl rfl (Screen.new_of_blankFont rfl) hnew,
      logoless_intro]
  have hmemory : (Code.lift logoless.memory : Task Unit).run [] [] fresh = .done () [] fresh := rfl
  refine ⟨drawn, rfl, ?_⟩
  unfold boot
  rw [Code.run_bind_done hmemory, Code.run_bind, Code.run_locked ⟨by simp, by simp⟩, Code.run_pure,
    Ending.done_bind, Ending.done_bind, Code.run_bind, List.erase_cons_head, hsmp, Ending.done_bind,
    Code.run_bind_done hinitrd, Code.run_bind_done hrun, Code.run_bind, hintro]
  rfl

/-- The panic handler is about to take the framebuffer that the boot sequence holds. -/
theorem missing_logo_waits : exists k rest,
    (processor logoless).Reaches (fun _ _ => True) (started logoless)
      ⟨k, [⟨.acquire .vga rest, []⟩, ⟨.panic .unwrapNone, [.vga]⟩]⟩ := by
  rcases logoless_boot with ⟨k, hvga, hboot⟩
  rcases panic_takes (fun _ _ => True) hvga trivial with ⟨rest, htakes⟩
  exact ⟨k, rest, (reaches_of_boot_panics hboot).trans htakes⟩

end Kernel

end NeurOS
