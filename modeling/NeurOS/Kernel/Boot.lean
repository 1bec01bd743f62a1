import NeurOS.Kernel.Interrupts

/-!
# The boot sequence

The opening screen is drawn with the framebuffer taken, and the statics are made on
the way of their first use.  A boot sequence whose ramdisk can be walked, and whose
font and opening screen can be drawn from it, panics only where the framebuffer and
the log are free.
-/

namespace NeurOS

open Foundation

namespace Kernel

variable {env : Environment} {k : Kernel} {initrd : Initrd}

/-- The ramdisk has no malformed entry on the way of the walk.  When the walk ends, there is a
framebuffer, the font can be loaded, and the opening screen can be drawn if the boot sequence
gets to it. -/
structure BootWorks (env : Environment) : Prop where
  memory : env.memory = .ok ()
  walk : forall logger p, walked env logger ≠ some (.error p)
  framebuffer : forall logger initrd logger', walked env logger = some (.ok (initrd, logger')) ->
    exists font vga, Font.new initrd Font.normalPath = .ok font ∧ newVga env font = .ok vga ∧
      (env.cpus ≠ none -> exists after,
        (Intro.initializeScreen env.profile initrd env.build vga).result = .ok after)

structure Opened (initrd : Initrd) (k : Kernel) : Prop where
  ramdisk : k.initrd = some initrd
  scheduler : exists scheduler, k.scheduler = some scheduler ∧ scheduler.queue ≠ []
  serial : k.serial = none
  serialConsole : k.serialConsole = none
  vga : exists vga, k.vga = some vga
  vgaConsole : k.vgaConsole = none

theorem run_initializeSmp {count : Nat} (h : env.cpus = some count) :
    (initializeSmp env).run [] [] k = .done () [] (k.setLogger
      (k.logger.log .debug s!"Detected that the processor has {count} core(s).")) := by
  unfold initializeSmp
  rw [Code.run_bind, h]
  exact run_log ⟨by simp, by simp⟩ _ _

theorem run_initializeInitrd {logger : Logger} (hinitrd : k.initrd = none)
    (hwalked : walked env k.logger = some (.ok (initrd, logger))) :
    (initializeInitrd env).run [] [] k = .done () [] ((k.setInitrd initrd).setLogger
      (logger.log .debug
        s!"Loaded {initrd.getFiles.length} files from the initial ramdisk.")) := by
  unfold initializeInitrd
  rw [Code.run_bind, run_ramdisk_new hinitrd ⟨by simp, by simp⟩ ⟨by simp, by simp⟩
    (by simp [hwalked]), hwalked]
  exact run_log ⟨by simp, by simp⟩ _ _

theorem initializeInitrd_meets (hworks : BootWorks env) (hinitrd : k.initrd = none) :
    ((initializeInitrd env).run [] [] k).Meets
      (fun _ held k' => held = [] ∧ exists initrd logger logger',
        walked env k.logger = some (.ok (initrd, logger)) ∧
          k' = (k.setInitrd initrd).setLogger logger')
      (fun _ _ _ => False) := by
  cases hwalked : walked env k.logger with
  | none =>
      unfold initializeInitrd
      rw [Code.run_bind, run_ramdisk_new hinitrd ⟨by simp, by simp⟩ ⟨by simp, by simp⟩
        (hworks.walk k.logger), hwalked]
      exact trivial
  | some result =>
      cases result with
      | error p => exact absurd hwalked (hworks.walk k.logger p)
      | ok result =>
          rw [run_initializeInitrd hinitrd hwalked]
          exact ⟨rfl, result.1, result.2, _, rfl, rfl⟩

theorem run_initializeScheduler (h : k.scheduler = none) :
    exists logger, initializeScheduler.run [] [] k = .done () []
      ((k.setLogger logger).setScheduler (Scheduler.initialized 100)) := by
  have hinit : Code.run [] (do
      logAll (Scheduler.new 100).2
      pure (Scheduler.new 100).1) [.first .scheduler] k =
        .done (Scheduler.new 100).1 [.first .scheduler]
        (k.setLogger (k.logger.record (Scheduler.new 100).2)) := by
    rw [Code.run_bind, run_logAll ⟨by simp, by simp⟩]
    rfl
  have hstatic : schedulerStatic.run [] [] k = .done (Scheduler.new 100).1 [] _ :=
    Code.run_force_done ⟨by simp, by simp⟩ h _ hinit
  refine ⟨k.logger.record (Scheduler.new 100).2, ?_⟩
  unfold initializeScheduler
  rw [Code.run_bind_done hstatic]
  exact Code.run_locked_done ⟨by simp, by simp⟩ rfl

theorem run_initializeIntro {font : Font} {vga : Vga} (hvga : k.vga = none)
    (hinitrd : k.initrd = some initrd) (hfont : Font.new initrd Font.normalPath = .ok font)
    (hnew : newVga env font = .ok vga) :
    (initializeIntro env).run [] [] k =
      match (Intro.initializeScreen env.profile initrd env.build vga).result with
      | .ok after => .done () [] (k.present after
          (Intro.initializeScreen env.profile initrd env.build vga).emitted)
      | .error p => .panicked p [.vga] ((k.setVga vga).draw
          (Intro.initializeScreen env.profile initrd env.build vga).emitted) := by
  have hstatic : (vgaStatic env).run [] [] k = .done vga [] (k.setVga vga) :=
    run_vgaStatic_new hvga ⟨by simp, by simp⟩ (run_ramdisk hinitrd) hfont hnew
  unfold initializeIntro
  rw [Code.run_bind_done hstatic, Code.run_locked ⟨by simp, by simp⟩,
    Code.run_bind_done (run_vgaStatic (k := k.setVga vga) rfl),
    Code.run_bind_done (run_ramdisk (k := k.setVga vga) hinitrd)]
  cases hpicture : (Intro.initializeScreen env.profile initrd env.build vga).result with
  | ok after =>
      rw [run_drawing_ok hpicture]
      rfl
  | error p =>
      rw [run_drawing_error hpicture]
      rfl

/-!
# The serial port
-/

section Shell

variable {blocked held : List Lock}

theorem serialConsoleStatic_meets (hramdisk : k.initrd = some initrd)
    (hconsole : k.serialConsole = none) (hfirst : Free blocked held (.first .serialConsole)) :
    ((serialConsoleStatic env).run blocked held k).Meets
      (fun shell held' k' => held' = held ∧ Shell.new initrd = .ok shell ∧
        k' = k.setSerialConsole shell)
      (fun _ held' k' => held' = .first .serialConsole :: held ∧ k' = k) := by
  unfold serialConsoleStatic newShell
  rw [Code.run_force_none hfirst hconsole, Code.run_bind_done (run_ramdisk hramdisk)]
  cases hshell : Shell.new initrd with
  | error p => exact ⟨rfl, rfl⟩
  | ok shell =>
      rw [Code.run_lift_ok rfl, Ending.done_bind, List.erase_cons_head]
      exact ⟨rfl, rfl, rfl⟩

theorem serialStatic_meets (hserial : k.serial = none)
    (hfirst : Free blocked held (.first .serial)) :
    ((serialStatic env).run blocked held k).Meets
      (fun _ held' k' => held' = held ∧ k' = k.setSerial ())
      (fun _ held' k' => held' = .first .serial :: held ∧ k' = k) := by
  unfold serialStatic
  rw [Code.run_force_none hfirst hserial]
  split
  · rw [Code.run_pure, Ending.done_bind, List.erase_cons_head]
    exact ⟨rfl, rfl⟩
  · exact ⟨rfl, rfl⟩

theorem displaySerial_meets (hramdisk : k.initrd = some initrd) (shell : Shell) :
    ((displaySerial env shell).run blocked held k).Meets
      (fun _ held' k' => held' = held ∧ exists texts bytes,
        shell.display initrd = .ok texts ∧ k' = k.transmit bytes)
      (fun _ held' k' => held' = held ∧ k' = k) := by
  unfold displaySerial
  rw [Code.run_bind_done (run_ramdisk hramdisk), Code.run_bind]
  cases hdisplay : shell.display initrd with
  | error p => exact ⟨rfl, rfl⟩
  | ok texts => exact ⟨rfl, texts, _, rfl, rfl⟩

theorem initializeShell_meets (hopened : Opened initrd k) :
    ((initializeShell env).run [] [] k).Meets (fun _ held k => held = [] ∧ Idle k)
      (fun _ held k => Broken held k) := by
  rcases hopened.vga with ⟨vga, hvga⟩
  unfold initializeShell
  apply Code.bind_meets
    (serialConsoleStatic_meets hopened.ramdisk hopened.serialConsole ⟨by simp, by simp⟩)
  · rintro p held k' ⟨rfl, rfl⟩
    exact broken_of_some hvga hopened.ramdisk (by simp)
  rintro shell held k' ⟨rfl, hshell, rfl⟩
  apply Code.locked_meets ⟨by simp, by simp⟩
  rw [Code.run_bind_done (run_serialConsoleStatic (k := k.setSerialConsole shell) rfl)]
  apply Code.bind_meets
    (serialStatic_meets (k := k.setSerialConsole shell) hopened.serial ⟨by simp, by simp⟩)
  · rintro p held k' ⟨rfl, rfl⟩
    exact broken_of_some hvga hopened.ramdisk (by simp)
  rintro _ held k' ⟨rfl, rfl⟩
  let ready := (k.setSerialConsole shell).setSerial ()
  have hready : ready.initrd = some initrd := hopened.ramdisk
  apply Code.locked_meets ⟨by simp, by simp⟩
  refine Ending.meets_mono ?_ ?_ (displaySerial_meets hready shell)
  · rintro _ held k' ⟨rfl, texts, bytes, hdisplay, rfl⟩
    exact ⟨rfl, initrd,
      { ramdisk := hopened.ramdisk
        scheduler := hopened.scheduler
        serial := rfl
        serialConsole := ⟨shell, rfl⟩
        vga := ⟨vga, hvga, fun _ hother => nomatch hopened.vgaConsole.symm.trans hother⟩
        shell := ⟨shell, texts, hshell, hdisplay⟩
        vgaConsole := fun _ hother => nomatch hopened.vgaConsole.symm.trans hother }⟩
  · rintro p held k' ⟨rfl, rfl⟩
    exact broken_of_some hvga hopened.ramdisk (by simp)

end Shell

/-!
# The whole sequence
-/

theorem star_meets (h : Idle k) :
    (Code.run [] (do
      Code.lift env.star
      log .info "The operating system has been successfully initialized.") [] k).Meets
      (fun _ held k => held = [] ∧ Idle k) (fun _ held k => Broken held k) := by
  rcases h with ⟨initrd, hmade⟩
  rw [Code.run_bind]
  cases env.star with
  | error p =>
      rcases hmade.vga with ⟨vga, hvga, _⟩
      exact broken_of_some hvga hmade.ramdisk (by simp)
  | ok _ =>
      rw [Code.run_lift_ok rfl, Ending.done_bind, run_log ⟨by simp, by simp⟩]
      exact ⟨rfl, initrd, { hmade with }⟩

theorem boot_meets (hworks : BootWorks env) :
    ((boot env).run [] [] fresh).Meets (fun _ held k => held = [] ∧ Idle k)
      (fun _ held k => Broken held k) := by
  unfold boot
  rw [Code.run_bind_done (Code.run_lift_ok hworks.memory), Code.run_bind,
    Code.run_locked ⟨by simp, by simp⟩, Code.run_pure, Ending.done_bind, Ending.done_bind,
    Code.run_bind]
  have hfresh : Broken [] fresh :=
    { vga := by simp, logger := by simp, firstVga := by simp, firstInitrd := by simp,
      made := Or.inl ⟨rfl, rfl⟩ }
  cases hcpus : env.cpus with
  | none =>
      unfold initializeSmp
      rw [Code.run_bind, hcpus]
      exact hfresh
  | some count =>
      rw [List.erase_cons_head, run_initializeSmp hcpus, Ending.done_bind]
      apply Code.bind_meets (initializeInitrd_meets hworks rfl) (fun _ _ _ => False.elim)
      rintro _ held k ⟨rfl, initrd, logger, logger', hwalked, rfl⟩
      rcases hworks.framebuffer _ _ _ hwalked with ⟨font, vga, hfont, hnew, hintro⟩
      rcases hintro (by simp [hcpus]) with ⟨after, hintro⟩
      let counted := fresh.setLogger
        (fresh.logger.log .debug s!"Detected that the processor has {count} core(s).")
      let walked := (counted.setInitrd initrd).setLogger logger'
      have hscheduler : walked.scheduler = none := rfl
      rcases run_initializeScheduler hscheduler with ⟨logger, hrun⟩
      let scheduled := (walked.setLogger logger).setScheduler (Scheduler.initialized 100)
      have hdrawn : (initializeIntro env).run [] [] scheduled =
          .done () [] (scheduled.present after
            (Intro.initializeScreen env.profile initrd env.build vga).emitted) := by
        rw [run_initializeIntro (k := scheduled) rfl rfl hfont hnew, hintro]
      have hopened : Opened initrd (scheduled.present after
          (Intro.initializeScreen env.profile initrd env.build vga).emitted) :=
        { ramdisk := rfl
          scheduler := ⟨_, rfl, by simp [Scheduler.initialized, Scheduler.add]⟩
          serial := rfl
          serialConsole := rfl
          vga := ⟨after, rfl⟩
          vgaConsole := rfl }
      rw [Code.run_bind_done hrun, Code.run_bind_done hdrawn]
      apply Code.bind_meets (initializeShell_meets hopened) (fun _ _ _ h => h)
      rintro _ held k ⟨rfl, hidle⟩
      exact star_meets hidle

end Kernel

end NeurOS
