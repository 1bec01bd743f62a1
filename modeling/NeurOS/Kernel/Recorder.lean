import NeurOS.Kernel.History
import NeurOS.Kernel.Waiting

/-!
# The log as a flight recorder

The history of the kernel is extended by each single step of every run: of boot, of
the handlers and of the panic handler, in any order and with any number of panics on
top of each other.  What the panic handler leaves on the framebuffer is the page of the
whole log, which starts with the records of every earlier state of the run.
-/

namespace NeurOS

open Foundation

namespace Kernel

variable {env : Environment} {k k' : Kernel}

/-!
# The panic handler
-/

theorem writeLogs_draws {initrd : Initrd} (hinitrd : k.initrd = some initrd) {vga : Vga}
    (hvga : k.vga = some vga) (records : List Log) :
    Writes (Code.forEach (fun record => write env (record.fmt ++ "\n")) records) k fun _ k' =>
      exists after,
        (vga.writeAll env.profile initrd (records.map fun record => record.fmt ++ "\n")).result =
          .ok after ∧
        k' = k.present after
          (vga.writeAll env.profile initrd
            (records.map fun record => record.fmt ++ "\n")).emitted := by
  induction records generalizing k vga with
  | nil =>
      refine ⟨vga, rfl, ?_⟩
      unfold present draw setVga
      rw [← hvga]
      exact (congrArg (fun drawn => { k with drawn := drawn }) (List.append_nil k.drawn)).symm
  | cons record rest ih =>
      apply Code.keeps_bind (write_draws hinitrd hvga (record.fmt ++ "\n"))
      intro _ _ hend
      rcases hend with ⟨middle, hmiddle, rfl⟩
      apply Code.keeps_mono (@ih (k.present middle _) hinitrd middle rfl)
      intro _ _ hend
      rcases hend with ⟨after, hafter, rfl⟩
      rw [List.map_cons, Vga.writeAll, Traced.bind_ok hmiddle]
      refine ⟨after, hafter, ?_⟩
      unfold present draw setVga Traced.after
      rw [List.append_assoc]

theorem showPanic_writes (hdrawable : Drawable k) (p : Panic) :
    Writes (showPanic env p) k fun _ k' => Final env.profile k' := by
  apply Code.keeps_bind (clear_writes hdrawable)
  intro _ k1 hend
  rcases hend with ⟨initrd, vga, cleared, before, hcleared, hinitrd, hvga, hdrawn, _⟩
  apply Code.keeps_bind (write_draws hinitrd hvga panicTitle)
  intro _ _ hend
  rcases hend with ⟨titled, htitled, rfl⟩
  let k2 := k1.present titled (cleared.writeStr env.profile initrd panicTitle).emitted
  apply Code.keeps_bind (log_writes k2 (panicLog env p).level (panicLog env p).message)
  intro _ _ hend
  subst hend
  let logger := k2.logger.log (panicLog env p).level (panicLog env p).message
  apply Code.keeps_locked
  apply Code.keeps_bind_get
  have hramdisk : (k2.setLogger logger).initrd = some initrd := hinitrd
  have hframebuffer : (k2.setLogger logger).vga = some titled := rfl
  apply Code.keeps_mono (writeLogs_draws hramdisk hframebuffer logger.getLogs)
  intro _ _ hend
  rcases hend with ⟨after, hafter, rfl⟩
  let records := titled.writeAll env.profile initrd
    (logger.getLogs.map fun record => record.fmt ++ "\n")
  have hpicture : picture env.profile initrd vga logger =
      Traced.emits (vga.clear.emitted ++ ((cleared.writeStr env.profile initrd panicTitle).emitted
        ++ records.emitted)) after := by
    unfold picture printed
    rw [Traced.bind_ok hcleared, Vga.writeAll, Traced.bind_ok htitled]
    unfold Traced.after
    rw [hafter]
    rfl
  refine ⟨initrd, vga, after, before, hramdisk, rfl, congrArg Traced.result hpicture, ?_⟩
  show k1.drawn ++ _ ++ records.emitted = before ++ (picture env.profile initrd vga logger).emitted
  rw [hpicture, hdrawn]
  simp [Traced.emits]

theorem panicHandler_writes (hdrawable : Drawable k) (p : Panic) :
    Writes (panicHandler env p) k fun _ k' => Final env.profile k' := by
  apply writes_bind (vgaStatic_writes hdrawable)
  intro _ k1 hextends _
  exact showPanic_writes (hextends.drawable hdrawable) p

/-!
# The boot sequence
-/

theorem initializeScheduler_writes (k : Kernel) :
    Writes initializeScheduler k fun _ _ => True := by
  apply Code.keeps_bind (schedulerStatic_writes k)
  intro _ k1 _
  apply Code.keeps_locked
  apply Code.keeps_bind (schedulerStatic_writes k1)
  intro scheduler k2 _
  exact Code.keeps_modify (extends_setScheduler k2 _) trivial

theorem initializeIntro_writes (hdrawable : Drawable k) :
    Writes (initializeIntro env) k fun _ _ => True := by
  apply writes_bind (vgaStatic_writes hdrawable)
  intro _ k1 hextends _
  apply Code.keeps_locked
  apply Code.keeps_bind (vgaStatic_writes (hextends.drawable hdrawable))
  intro vga k2 hend
  rcases hend with ⟨hvga, _⟩
  apply Code.keeps_bind (ramdisk_writes k2)
  intro initrd k3 hend
  rcases hend with ⟨hinitrd, hsame, _⟩
  exact Code.keeps_mono (drawing_writes hinitrd (hsame.trans hvga)
    fun _ => Intro.initializeScreen_sameSize) fun _ _ _ => trivial

theorem displaySerial_writes (k : Kernel) (shell : Shell) :
    Writes (displaySerial env shell) k fun _ _ => True := by
  apply Code.keeps_bind (ramdisk_writes k)
  intro initrd k1 _
  apply Code.keeps_bind_lift
  intro texts _
  exact Code.keeps_modify (extends_transmit k1 _) trivial

theorem initializeShell_writes (k : Kernel) :
    Writes (initializeShell env) k fun _ _ => True := by
  apply Code.keeps_bind (serialConsoleStatic_writes k)
  intro _ k1 _
  apply Code.keeps_locked
  apply Code.keeps_bind (serialConsoleStatic_writes k1)
  intro shell k2 _
  apply Code.keeps_bind (serialStatic_writes k2)
  intro _ k3 _
  exact Code.keeps_locked (displaySerial_writes k3 shell)

theorem boot_writes (hdrawable : Drawable k) : Writes (boot env) k fun _ _ => True := by
  apply Code.keeps_bind_lift
  intro _ _
  apply Code.keeps_bind (Q := fun _ k' => k = k')
    (Code.keeps_locked (Code.keeps_pure rfl))
  intro _ _ hend
  subst hend
  apply writes_bind (Q := fun _ _ => True)
  · apply Code.keeps_bind_lift
    intro count _
    exact Code.keeps_mono (log_writes k _ _) fun _ _ _ => trivial
  intro _ k1 hextends1 _
  apply writes_bind (Q := fun _ _ => True)
  · apply Code.keeps_bind (ramdisk_writes k1)
    intro initrd k' _
    exact Code.keeps_mono (log_writes k' _ _) fun _ _ _ => trivial
  intro _ k2 hextends2 _
  apply writes_bind (initializeScheduler_writes k2)
  intro _ k3 hextends3 _
  have hdrawable3 : Drawable k3 :=
    hextends3.drawable (hextends2.drawable (hextends1.drawable hdrawable))
  apply Code.keeps_bind (initializeIntro_writes hdrawable3)
  intro _ k4 _
  apply Code.keeps_bind (initializeShell_writes k4)
  intro _ k5 _
  apply Code.keeps_bind_lift
  intro _ _
  exact Code.keeps_mono (log_writes k5 _ _) fun _ _ _ => trivial

/-!
# Every run
-/

theorem guarantee (accepts : Event Interrupt -> Kernel -> Prop) :
    Processor.Guarantee (processor env) accepts Drawable Extends (Final env.profile) where
  refl := Extends.refl
  trans _ _ _ := Extends.trans
  inv _ _ hdrawable hextends := hextends.drawable hdrawable
  handler i k hdrawable _ := by
    cases i with
    | timer => exact timerHandler_writes k
    | keyboard scanCode => exact keyboardHandler_writes hdrawable scanCode
    | serial byte => exact serialHandler_writes k byte
  onPanic p k hdrawable _ := panicHandler_writes hdrawable p

theorem fresh_drawable : Drawable fresh := fun h => absurd rfl h

section Runs

variable {accepts : Event Interrupt -> Kernel -> Prop} {system system' : System Lock Kernel}

theorem guarded_of_reaches (h : (processor env).Reaches accepts (started env) system)
    (h' : (processor env).Reaches accepts system system') :
    Extends system.data system'.data ∧ Processor.Guarded Extends (Final env.profile) system' := by
  rcases Processor.guarded_reaches (guarantee accepts) (.alone (boot_writes fresh_drawable))
    fresh_drawable h with ⟨hextends, hguarded⟩
  exact Processor.guarded_reaches (guarantee accepts) hguarded
    (hextends.drawable fresh_drawable) h'

/-- Each later state of a run, between interrupts, in the middle of a handler or in a panic,
extends the history of each earlier one. -/
theorem history_grows (h : (processor env).Reaches accepts (started env) system)
    (h' : (processor env).Reaches accepts system system') : Extends system.data system'.data :=
  (guarded_of_reaches h h').1

theorem drawn_of_final {initrd : Initrd} {vga : Vga} {normal bold : Font}
    (h : Final env.profile k) (hinitrd : k.initrd = some initrd) (hvga : k.vga = some vga)
    (hnormal : Font.new initrd Font.normalPath = .ok normal)
    (hbold : Font.new initrd Font.boldPath = .ok bold)
    (hlogs : forall log, log ∈ k.logger.getLogs -> log.Plain) :
    exists before, k.drawn =
      before ++ (vga.clearPixels ++ pagePixels 24 (logPage normal bold k.logger.getLogs)) := by
  rcases h with ⟨initrd', vga', after, before, hshown⟩
  have hsame := hshown.ramdisk
  rw [hinitrd] at hsame
  cases hsame
  have hafter := hshown.framebuffer
  rw [hvga] at hafter
  cases hafter
  rcases Vga.writeAll_page env.profile hnormal hbold hlogs vga' with ⟨below, last, hpage⟩
  have hpicture : picture env.profile initrd vga' k.logger =
      Traced.emits (vga'.clearPixels ++ pagePixels 24 (logPage normal bold k.logger.getLogs))
        ((vga'.setFont normal).setCursor 8 below last Color.black) := by
    unfold picture
    rw [Vga.clear_eq, Traced.emits_bind]
    exact (congrArg (Traced.after vga'.clearPixels) hpage).trans (Traced.after_emits _ _ _)
  have hresult := hshown.result
  rw [hpicture] at hresult
  cases hresult
  exact ⟨before, by rw [hshown.drawn, hpicture]; rfl⟩

/-- When the code of a panic handler has ended, every point of the screen shows the page of the
log, whatever the framebuffer held, and the log starts with the records of every earlier
state of the run in their order. -/
theorem panic_shows_history (h : (processor env).Reaches accepts (started env) system)
    {held taken : List Lock} {p : Panic} {below : List (Frame Lock Kernel)}
    (h' : (processor env).Reaches accepts system
      ⟨k, ⟨.done (), held⟩ :: ⟨.panic p, taken⟩ :: below⟩)
    {initrd : Initrd} {vga : Vga} {normal bold : Font}
    (hinitrd : k.initrd = some initrd) (hvga : k.vga = some vga)
    (hnormal : Font.new initrd Font.normalPath = .ok normal)
    (hbold : Font.new initrd Font.boldPath = .ok bold)
    (hlogs : forall log, log ∈ k.logger.getLogs -> log.Plain)
    (hpitch : 4 * vga.width <= vga.pitch)
    (hwidth : forall row, row ∈ logPage normal bold k.logger.getLogs ->
      8 + 8 * row.length <= vga.width) :
    system.data.logger.getLogs <+: k.logger.getLogs ∧
      forall (ram : Ram) x y, x < vga.width -> y < vga.height ->
        pixelAt vga.pitch (paint vga.pitch ram k.drawn) x y =
          (pageColor 24 (logPage normal bold k.logger.getLogs) x y).getD Color.black := by
  rcases guarded_of_reaches h h' with ⟨hextends, hguarded⟩
  refine ⟨hextends.log, ?_⟩
  intro ram x y hx hy
  rcases drawn_of_final (Processor.final_of_guarded hguarded) hinitrd hvga hnormal hbold hlogs with
    ⟨before, hdrawn⟩
  have hfits : PageFits vga.width (logPage normal bold k.logger.getLogs) := fun row hrow =>
    ⟨logPage_colored normal bold _ row hrow, hwidth row hrow⟩
  rw [hdrawn, paint_append]
  exact pixelAt_page hpitch hfits (paint vga.pitch ram before) hx hy

end Runs

/-!
# A run with a panic
-/

theorem reaches_of_panicHandler {accepts : Event Interrupt -> Kernel -> Prop} {p : Panic}
    {held taken : List Lock} (h : (panicHandler env p).run taken [] k = .done () held k')
    (haccepts : accepts (.panic p) k) :
    (processor env).Reaches accepts ⟨k, [⟨.panic p, taken⟩, ⟨.done (), []⟩]⟩
      ⟨k', [⟨.done (), held⟩, ⟨.panic p, taken⟩, ⟨.done (), []⟩]⟩ := by
  have htaken : heldBy [(⟨.panic p, taken⟩ : Frame Lock Kernel), ⟨.done (), []⟩] = taken := by
    simp [heldBy]
  have harrives : (processor env).Arrives accepts [⟨.panic p, taken⟩, ⟨.done (), []⟩]
      ⟨k, [⟨panicHandler env p, []⟩, ⟨.panic p, taken⟩, ⟨.done (), []⟩]⟩
      ((panicHandler env p).run taken [] k) :=
    Processor.arrives htaken (panicHandler env p) [] k
  rw [h] at harrives
  exact .head (.panics haccepts) harrives

theorem missing_shown : exists k last,
    Processor.Served (processor whole) (Accepts whole) (boot whole) fresh missing [] k ∧
    (processor whole).Reaches (Accepts whole) ⟨k, [⟨.done (), []⟩]⟩
      ⟨last, [⟨.done (), [.vga]⟩, ⟨.panic .unwrapNone, [.serial, .serialConsole]⟩,
        ⟨.done (), []⟩]⟩ ∧
    last.logger = k.logger.log (panicLog whole .unwrapNone).level
      (panicLog whole .unwrapNone).message := by
  rcases missing_panics with
    ⟨k, panicked, hserved, hidle, hpanics, hramdisk, hlogger, hprintable⟩
  have hmeets := @handler_meets whole k (.serial 0x0D) hidle nofun
  rw [hpanics] at hmeets
  have hbroken : Broken [.serial, .serialConsole] panicked := hmeets
  have hvga : exists vga, panicked.vga = some vga := by
    rcases hbroken.made with ⟨_, hnone⟩ | ⟨vga, _, hvga, _⟩
    · exact nomatch hnone.symm.trans hramdisk
    · exact ⟨vga, hvga⟩
  rcases hvga with ⟨vga, hvga⟩
  have htexts : Printable whole .unwrapNone (Ustar.initrdOf wholeEntries) panicked.logger := by
    unfold PanicPrintable at hprintable
    rw [hramdisk] at hprintable
    exact hprintable
  rcases run_panicHandler_made hbroken (run_vgaStatic hvga) hvga hramdisk htexts with
    ⟨last, hrun, _, hlast⟩
  have hbelow : heldBy [(⟨.done (), []⟩ : Frame Lock Kernel)] = [] := rfl
  have harrives : (processor whole).Arrives (Accepts whole) [⟨.done (), []⟩]
      ⟨k, [⟨handler whole (.serial 0x0D), []⟩, ⟨.done (), []⟩]⟩
      ((handler whole (.serial 0x0D)).run [] [] k) :=
    Processor.arrives hbelow (handler whole (.serial 0x0D)) [] k
  rw [hpanics] at harrives
  have haccepts : Accepts whole (.interrupt (.serial 0x0D)) k := nofun
  have hstarts : (processor whole).Step (Accepts whole) ⟨k, [⟨.done (), []⟩]⟩
      ⟨k, [⟨handler whole (.serial 0x0D), []⟩, ⟨.done (), []⟩]⟩ :=
    Processor.Step.interrupted (i := Interrupt.serial 0x0D) haccepts
  refine ⟨k, last, hserved, ?_, by rw [hlast, hlogger]⟩
  exact .head hstarts (harrives.trans (reaches_of_panicHandler hrun hprintable))

theorem history_grows_sample : exists k last,
    Processor.Served (processor whole) (Accepts whole) (boot whole) fresh missing [] k ∧
    (processor whole).Reaches (Accepts whole) ⟨k, [⟨.done (), []⟩]⟩
      ⟨last, [⟨.done (), [.vga]⟩, ⟨.panic .unwrapNone, [.serial, .serialConsole]⟩,
        ⟨.done (), []⟩]⟩ ∧
    Extends k last := by
  rcases missing_shown with ⟨k, last, hserved, hreaches, _⟩
  exact ⟨k, last, hserved, hreaches,
    history_grows (Processor.reaches_of_served hserved) hreaches⟩

theorem reaches_booted {accepts : Event Interrupt -> Kernel -> Prop} (startup : Startup env) :
    (processor env).Reaches accepts (started env) ⟨startup.booted, [⟨.done (), []⟩]⟩ :=
  Processor.reaches_of_served ⟨[], _, run_boot startup, .nothing⟩

theorem reaches_of_booted {accepts : Event Interrupt -> Kernel -> Prop} (startup : Startup env)
    {is : List Interrupt}
    (h : Processor.Served (processor env) accepts (boot env) fresh is held k) :
    (processor env).Reaches accepts ⟨startup.booted, [⟨.done (), []⟩]⟩ ⟨k, [⟨.done (), held⟩]⟩ := by
  rcases h with ⟨first, start, hboot, hserves⟩
  rw [run_boot startup] at hboot
  cases hboot
  exact Processor.reaches_of_serves hserves

theorem size_of_reaches {accepts : Event Interrupt -> Kernel -> Prop} {system : System Lock Kernel}
    (startup : Startup env) {framebuffer : Framebuffer} {more : List Framebuffer}
    (hframebuffers : env.framebuffers = some (framebuffer :: more))
    (h : (processor env).Reaches accepts ⟨startup.booted, [⟨.done (), []⟩]⟩ system) :
    exists vga, system.data.vga = some vga ∧ vga.height = framebuffer.height ∧
      vga.pitch = framebuffer.pitch ∧ vga.width = framebuffer.width := by
  have hvga := startup.vga_eq
  unfold newVga at hvga
  rw [hframebuffers] at hvga
  have hopened := Intro.initializeScreen_sameSize startup.opened_eq
  rcases (guarded_of_reaches (reaches_booted startup) h).1.vga startup.opened rfl with
    ⟨vga, hlast, hsize⟩
  have hsame := hopened.trans hsize
  rw [← Except.ok.inj hvga] at hsame
  exact ⟨vga, hlast, hsame.height, hsame.pitch, hsame.width⟩

/-!
# The log of the run
-/

theorem typed_logger {profile : Profile} {initrd : Initrd} {desk after : Desk}
    {bytes : List UInt8} {answers : List (List UInt8)}
    (h : (Desk.machine profile initrd).run desk (bytes.map .serial) = .ok (after, answers)) :
    after.console.logger = desk.console.logger := by
  induction bytes generalizing desk answers with
  | nil =>
      cases h
      rfl
  | cons byte rest ih =>
      rcases Machine.run_cons_eq_ok_iff.mp h with ⟨middle, answer, tail, hstep, htail, _⟩
      rcases Outcome.bind_eq_ok_iff.mp hstep with ⟨⟨console, bytes⟩, hreply, heq⟩
      cases heq
      rcases Console.reply_frame hreply with ⟨_, _, hafter⟩
      rw [ih htail, hafter]

theorem missing_logger {startup : Startup env} (h : ServedBy env missing held k) :
    k.logger.getLogs = startup.records ++ [receivedRecord Screen.enter] := by
  rcases simulates_of_served startup h with ⟨_, desk, answers, hdesk, hholds, _⟩
  rcases Machine.run_cons_eq_ok_iff.mp hdesk with ⟨ticked, _, _, htick, hrest, _⟩
  rcases Machine.run_cons_eq_ok_iff.mp hrest with ⟨drawn, _, _, henter, htyped, _⟩
  rw [step_timer] at htick
  cases htick
  rw [step_enter] at henter
  rcases Outcome.bind_eq_ok_iff.mp henter with ⟨console, _, hdisplay⟩
  rcases Outcome.bind_eq_ok_iff.mp hdisplay with ⟨vga, _, heq⟩
  cases heq
  rw [hholds.logger, typed_logger htyped]
  rfl

def missingRecords : List Log :=
  coresRecord 1 :: entryRecords .dev wholeEntries ++
    loadedRecord (Ustar.initrdOf wholeEntries) :: (Scheduler.new 100).2 ++ [successRecord] ++
    [receivedRecord Screen.enter] ++ [panicLog whole .unwrapNone]

theorem missingRecords_short {record : Log} (h : record ∈ missingRecords) :
    record.message.toList.length <= 150 := by
  have hall : missingRecords.all (fun record => decide (record.message.toList.length <= 150)) =
      true := by
    decide +kernel
  exact of_decide_eq_true (List.all_eq_true.mp hall record h)

theorem missingRecords_eq {startup : Startup whole} (hcount : startup.count = 1)
    (hinitrd : startup.initrd = Ustar.initrdOf wholeEntries)
    (hlines : startup.lines = entryRecords .dev wholeEntries) :
    startup.records ++ [receivedRecord Screen.enter] ++ [panicLog whole .unwrapNone] =
      missingRecords := by
  unfold Startup.records
  rw [hcount, hlines, hinitrd]
  rfl

theorem missingRecords_rows {row : List Letter}
    (h : row ∈ logPage Screen.fontVga.font Screen.fontVga.font missingRecords) :
    8 + 8 * row.length <= 1280 := by
  have hlength := logPage_length_le _ _ (show 6 <= 150 by lia) (fun _ => missingRecords_short)
    row h
  lia

theorem panic_shows_history_sample : exists k last vga,
    Processor.Served (processor whole) (Accepts whole) (boot whole) fresh missing [] k ∧
    (processor whole).Reaches (Accepts whole) ⟨k, [⟨.done (), []⟩]⟩
      ⟨last, [⟨.done (), [.vga]⟩, ⟨.panic .unwrapNone, [.serial, .serialConsole]⟩,
        ⟨.done (), []⟩]⟩ ∧
    last.vga = some vga ∧ vga.width = 1280 ∧ vga.height = 800 ∧
    k.logger.getLogs <+: last.logger.getLogs ∧
    forall (ram : Ram) x y, x < vga.width -> y < vga.height ->
      pixelAt vga.pitch (paint vga.pitch ram last.drawn) x y =
        (pageColor 24 (logPage Screen.fontVga.font Screen.fontVga.font last.logger.getLogs) x
          y).getD Color.black := by
  rcases missing_shown with ⟨k, last, hserved, hreaches, hlogger⟩
  rcases exists_startup whole_equipped with ⟨startup, hcount, hinitrd, hlines, _, _⟩
  have hservedBy := servedBy_of_served hserved
  have hboots : (processor whole).Reaches (Accepts whole) (started whole)
      ⟨k, [⟨.done (), []⟩]⟩ := Processor.reaches_of_served hserved
  have hlogs : last.logger.getLogs = k.logger.getLogs ++ [panicLog whole .unwrapNone] := by
    rw [hlogger]
    rfl
  have hrecords : last.logger.getLogs = missingRecords := by
    rw [hlogs, @missing_logger _ _ _ startup hservedBy]
    exact missingRecords_eq hcount hinitrd hlines
  have hrun := (reaches_of_booted startup hserved).trans hreaches
  rcases size_of_reaches startup rfl hrun with ⟨vga, hvga, hheight, hpitch, hwidth⟩
  have hramdisk : last.initrd = some (Ustar.initrdOf wholeEntries) :=
    (guarded_of_reaches (reaches_booted startup) hrun).1.initrd _ (congrArg some hinitrd)
  have hplain : forall log, log ∈ last.logger.getLogs -> log.Plain := by
    rw [hlogs]
    exact plainLog_append
      (plainLog_of_served startup (by rw [hlines]; exact whole_lines) hservedBy)
      (plainLog_single (Letter.plainText_of_all rfl))
  have hrows : forall row, row ∈ logPage Screen.fontVga.font Screen.fontVga.font
      last.logger.getLogs -> 8 + 8 * row.length <= vga.width := by
    intro row hrow
    rw [hrecords] at hrow
    rw [hwidth]
    exact missingRecords_rows hrow
  have hpitches : 4 * vga.width <= vga.pitch := by
    rw [hwidth, hpitch]
    show 4 * 1280 <= 5120
    lia
  rcases panic_shows_history hboots hreaches hramdisk hvga (Screen.new_of_blankFont rfl)
    (Screen.new_of_blankFont rfl) hplain hpitches hrows with ⟨hrecorded, hscreen⟩
  exact ⟨k, last, vga, hserved, hreaches, hvga, hwidth, hheight, hrecorded, hscreen⟩

end Kernel

end NeurOS
