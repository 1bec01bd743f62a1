import NeurOS.Kernel.Boot

/-!
# The panic handler

The panic handler takes the framebuffer and the log, and draws texts while it holds
them: it waits for ever after a panic that left one of them taken, and so does the
handler of a panic of its own.  Where they are free and its texts can be drawn, it
shows the log.
-/

namespace NeurOS

open Foundation

namespace Kernel

variable {env : Environment} {blocked held : List Lock} {k : Kernel} {initrd : Initrd}

/-!
# What it shows
-/

def printed (logger : Logger) : List String :=
  panicTitle :: logger.getLogs.map fun record => record.fmt ++ "\n"

def picture (profile : Profile) (initrd : Initrd) (vga : Vga) (logger : Logger) :
    Traced Pixel Vga := do
  let vga ← vga.clear
  vga.writeAll profile initrd (printed logger)

/-- The title and the log are the last that was drawn, and they were drawn to their end. -/
structure Shown (profile : Profile) (k : Kernel) (initrd : Initrd) (vga after : Vga)
    (before : List Pixel) : Prop where
  ramdisk : k.initrd = some initrd
  framebuffer : k.vga = some after
  result : (picture profile initrd vga k.logger).result = .ok after
  drawn : k.drawn = before ++ (picture profile initrd vga k.logger).emitted

def Final (profile : Profile) (k : Kernel) : Prop :=
  exists initrd vga after before, Shown profile k initrd vga after before

def Printable (env : Environment) (p : Panic) (initrd : Initrd) (logger : Logger) : Prop :=
  forall text, text ∈ printed (logger.log (panicLog env p).level (panicLog env p).message) ->
    Vga.legible initrd text.toList = true

/-- The log can be drawn, also if the panic handler is the first to use the ramdisk. -/
def PanicPrintable (env : Environment) (p : Panic) (k : Kernel) : Prop :=
  match k.initrd with
  | some initrd => Printable env p initrd k.logger
  | none => forall initrd logger, walked env k.logger = some (.ok (initrd, logger)) ->
      Printable env p initrd logger

theorem run_showPanic {vga : Vga} {p : Panic} (hlogger : Free blocked held .logger)
    (hvga : k.vga = some vga) (hinitrd : k.initrd = some initrd)
    (hprintable : Printable env p initrd k.logger) :
    exists k', (showPanic env p).run blocked held k = .done () held k' ∧
      Final env.profile k' ∧
      k'.logger = k.logger.log (panicLog env p).level (panicLog env p).message := by
  let cleared := k.present (vga.setCursor 8 24 Color.white Color.black) vga.clear.emitted
  let logger := k.logger.log (panicLog env p).level (panicLog env p).message
  have hhigh : (vga.setCursor 8 24 Color.white Color.black).High := Nat.le_add_left 12 12
  have htitle : Vga.legible initrd panicTitle.toList = true :=
    hprintable panicTitle List.mem_cons_self
  have hcleared : cleared.initrd = some initrd := hinitrd
  rcases run_write env rfl hcleared hhigh htitle with ⟨titled, htitled, htitleResult, hwrite⟩
  let title := (Vga.writeStr env.profile initrd (vga.setCursor 8 24 Color.white Color.black)
    panicTitle).emitted
  let logged := (cleared.present titled title).setLogger logger
  have hlogs : forall record, record ∈ logger.getLogs ->
      Vga.legible initrd (record.fmt ++ "\n").toList = true := fun record hrecord =>
    hprintable _ (List.mem_cons_of_mem _ (List.mem_map_of_mem hrecord))
  have hlogged : logged.initrd = some initrd := hinitrd
  rcases run_writes env (fun record : Log => record.fmt ++ "\n") logger.getLogs rfl hlogged
    htitled hlogs with ⟨after, _, hrecordsResult, hwrites⟩
  let records := (titled.writeAll env.profile initrd
    (logger.getLogs.map fun record => record.fmt ++ "\n")).emitted
  have hpicture : picture env.profile initrd vga logger =
      Traced.emits (vga.clear.emitted ++ (title ++ records)) after := by
    unfold picture printed
    rw [Traced.bind_ok (Vga.clear_result vga), Vga.writeAll, Traced.bind_ok htitleResult]
    unfold Traced.after
    rw [hrecordsResult]
    rfl
  have hshown : Shown env.profile (logged.present after records) initrd vga after k.drawn :=
    { ramdisk := hinitrd
      framebuffer := rfl
      result := congrArg Traced.result hpicture
      drawn := by
        show k.drawn ++ vga.clear.emitted ++ title ++ records =
          k.drawn ++ (picture env.profile initrd vga logger).emitted
        rw [hpicture]
        simp [Traced.emits] }
  refine ⟨logged.present after records, ?_, ⟨initrd, vga, after, k.drawn, hshown⟩, rfl⟩
  unfold showPanic
  rw [Code.run_bind_done (run_clear hvga), Code.run_bind_done hwrite,
    Code.run_bind_done (run_log hlogger _ _)]
  apply Code.run_locked_done hlogger
  rw [Code.run_bind_done Code.run_get]
  exact hwrites

theorem run_panicHandler_made {vga : Vga} {p : Panic} {k' : Kernel}
    (hbroken : Broken blocked k)
    (hstatic : (vgaStatic env).run blocked [] k = .done vga [] k') (hvga : k'.vga = some vga)
    (hinitrd : k'.initrd = some initrd) (hprintable : Printable env p initrd k'.logger) :
    exists last, (panicHandler env p).run blocked [] k = .done () [.vga] last ∧
      Final env.profile last ∧
      last.logger = k'.logger.log (panicLog env p).level (panicLog env p).message := by
  have hfree : Free blocked [] .vga := ⟨by simp, hbroken.vga⟩
  have hlogger : Free blocked [.vga] .logger := ⟨by simp, hbroken.logger⟩
  rcases run_showPanic hlogger hvga hinitrd hprintable with ⟨last, hshow, hend⟩
  refine ⟨last, ?_, hend⟩
  unfold panicHandler
  rw [Code.run_bind_done hstatic, Code.run_bind, Code.run_acquire hfree, Code.run, Ending.done_bind]
  exact hshow

/-- The panic handler takes the framebuffer and shows the log, unless it walks the ramdisk
first and the walk does not end. -/
theorem run_panicHandler (hworks : BootWorks env) {p : Panic} (hbroken : Broken blocked k)
    (hprintable : PanicPrintable env p k) :
    (exists last, (panicHandler env p).run blocked [] k = .done () [.vga] last ∧
      Final env.profile last) ∨
      (k.initrd = none ∧ walked env k.logger = none ∧
        (panicHandler env p).run blocked [] k = .cut) := by
  unfold PanicPrintable at hprintable
  rcases hbroken.made with ⟨hvga, hinitrd⟩ | ⟨vga, initrd, hvga, hinitrd⟩
  · rw [hinitrd] at hprintable
    have hfirst : Free blocked [] (.first .vga) := ⟨by simp, hbroken.firstVga⟩
    have hinitrdFree : Free blocked [.first .vga] (.first .initrd) :=
      ⟨by simp, hbroken.firstInitrd⟩
    have hlogger : Free blocked [.first .vga] .logger := ⟨by simp, hbroken.logger⟩
    have hramdisk := run_ramdisk_new hinitrd hinitrdFree hlogger (hworks.walk k.logger)
    cases hwalked : walked env k.logger with
    | none =>
        rw [hwalked] at hramdisk
        refine Or.inr ⟨hinitrd, rfl, ?_⟩
        unfold panicHandler vgaStatic
        rw [Code.run_bind, Code.run_force_none hfirst hvga, Code.run_bind, hramdisk]
        rfl
    | some result =>
        cases result with
        | error p => exact absurd hwalked (hworks.walk k.logger p)
        | ok result =>
            rcases hworks.framebuffer _ _ _ hwalked with ⟨font, vga, hfont, hnew, _⟩
            rw [hwalked] at hramdisk
            have hstatic := run_vgaStatic_new hvga hfirst hramdisk hfont hnew
            rcases run_panicHandler_made hbroken hstatic rfl rfl (hprintable _ _ hwalked) with
              ⟨last, hrun, hfinal, _⟩
            exact Or.inl ⟨last, hrun, hfinal⟩
  · rw [hinitrd] at hprintable
    rcases run_panicHandler_made hbroken (run_vgaStatic hvga) hvga hinitrd hprintable with
      ⟨last, hrun, hfinal, _⟩
    exact Or.inl ⟨last, hrun, hfinal⟩

/-!
# A discipline for every run
-/

/-- The prompt can be drawn when the return key arrives, and the log when the code panics. -/
def Accepts (env : Environment) : Event Interrupt -> Kernel -> Prop
  | .interrupt i, k => i = .keyboard Screen.enter -> PromptLegible k
  | .panic p, k => PanicPrintable env p k

theorem discipline (hworks : BootWorks env) :
    Processor.Discipline (processor env) (Accepts env) Idle (fun _ => Broken)
      (Final env.profile) where
  handler i _ hidle haccepts := handler_meets i hidle haccepts
  onPanic p held k hbroken haccepts := by
    change ((panicHandler env p).run held [] k).Meets _ _
    rcases run_panicHandler hworks hbroken haccepts with
      ⟨last, hrun, hfinal⟩ | ⟨_, _, hrun⟩
    · rw [hrun]
      exact hfinal
    · rw [hrun]
      exact trivial

theorem panic_takes (accepts : Event Interrupt -> Kernel -> Prop) {vga : Vga} {p : Panic}
    {taken : List Lock} {below : List (Frame Lock Kernel)} (hvga : k.vga = some vga)
    (haccepts : accepts (.panic p) k) :
    exists rest, (processor env).Reaches accepts ⟨k, ⟨.panic p, taken⟩ :: below⟩
      ⟨k, ⟨.acquire .vga rest, []⟩ :: ⟨.panic p, taken⟩ :: below⟩ := by
  have htakes : exists ahead, panicHandler env p = .read ahead ∧
      ahead k = .acquire .vga (showPanic env p) := by
    refine ⟨_, rfl, ?_⟩
    simp only [Code.bind, hvga]
    rfl
  rcases htakes with ⟨ahead, hread, htake⟩
  have hpanics : (processor env).Step accepts ⟨k, ⟨.panic p, taken⟩ :: below⟩
      ⟨k, ⟨panicHandler env p, []⟩ :: ⟨.panic p, taken⟩ :: below⟩ := .panics haccepts
  have hreads : (processor env).Step accepts
      ⟨k, ⟨.read ahead, []⟩ :: ⟨.panic p, taken⟩ :: below⟩
      ⟨k, ⟨ahead k, []⟩ :: ⟨.panic p, taken⟩ :: below⟩ := .read
  rw [htake, ← hread] at hreads
  exact ⟨showPanic env p, .head hpanics (.single hreads)⟩

theorem reaches_of_boot_panics {accepts : Event Interrupt -> Kernel -> Prop} {p : Panic}
    (h : (boot env).run [] [] fresh = .panicked p held k) :
    (processor env).Reaches accepts (started env) ⟨k, [⟨.panic p, held⟩]⟩ := by
  have harrives : (processor env).Arrives accepts [] (started env)
      ((boot env).run [] [] fresh) :=
    Processor.arrives rfl (boot env) [] fresh
  rw [h] at harrives
  exact harrives

theorem started_disciplined (hworks : BootWorks env) :
    Processor.Disciplined Idle (fun _ => Broken) (Final env.profile) (started env) :=
  .alone (boot_meets hworks)

end Kernel

end NeurOS
