import NeurOS.Foundation.Guarantee
import NeurOS.Kernel.Model
import NeurOS.Shell.Session
import NeurOS.Vga.Size

/-!
# What the code of the kernel never takes back

Every write of the kernel extends its history: records and transmitted bytes are only
appended, and what the first use of a static has made stays.  One lemma for each piece
of code says so, with what the code behind it has to know of its end.
-/

namespace NeurOS

open Foundation

namespace Kernel

variable {env : Environment} {k k' k'' : Kernel}

def Drawable (k : Kernel) : Prop :=
  k.vga ≠ none -> k.initrd ≠ none

/-- The history of a kernel goes on: the log, the transmitted bytes and the drawn pixels grow at
their ends, and the statics that are made stay, the framebuffer with its size and the shell of the
serial port up to the line that is typed. -/
structure Extends (k k' : Kernel) : Prop where
  log : k.logger.getLogs <+: k'.logger.getLogs
  transmitted : k.transmitted <+: k'.transmitted
  drawn : k.drawn <+: k'.drawn
  initrd : forall initrd, k.initrd = some initrd -> k'.initrd = some initrd
  scheduler : k.scheduler ≠ none -> k'.scheduler ≠ none
  serial : k.serial ≠ none -> k'.serial ≠ none
  vga : forall vga, k.vga = some vga -> exists after, k'.vga = some after ∧ vga.SameSize after
  drawable : Drawable k -> Drawable k'
  vgaConsole : forall shell, k.vgaConsole = some shell -> k'.vgaConsole = some shell
  serialConsole : forall shell, k.serialConsole = some shell ->
    exists buffer, k'.serialConsole = some { shell with buffer := buffer }

theorem Extends.refl (k : Kernel) : Extends k k where
  log := List.prefix_refl _
  transmitted := List.prefix_refl _
  drawn := List.prefix_refl _
  initrd _ h := h
  scheduler h := h
  serial h := h
  vga vga h := ⟨vga, h, Vga.SameSize.refl vga⟩
  drawable h := h
  vgaConsole _ h := h
  serialConsole shell h := ⟨shell.buffer, h⟩

theorem Extends.trans (h : Extends k k') (h' : Extends k' k'') : Extends k k'' where
  log := h.log.trans h'.log
  transmitted := h.transmitted.trans h'.transmitted
  drawn := h.drawn.trans h'.drawn
  initrd initrd hk := h'.initrd initrd (h.initrd initrd hk)
  scheduler hk := h'.scheduler (h.scheduler hk)
  serial hk := h'.serial (h.serial hk)
  vga vga hk := by
    rcases h.vga vga hk with ⟨middle, hmiddle, hsize⟩
    rcases h'.vga middle hmiddle with ⟨after, hafter, hsize'⟩
    exact ⟨after, hafter, hsize.trans hsize'⟩
  drawable hk := h'.drawable (h.drawable hk)
  vgaConsole shell hk := h'.vgaConsole shell (h.vgaConsole shell hk)
  serialConsole shell hk := by
    rcases h.serialConsole shell hk with ⟨_, hbuffer⟩
    rcases h'.serialConsole _ hbuffer with ⟨buffer, hlast⟩
    exact ⟨buffer, hlast⟩

abbrev Writes {α : Type} (code : Task α) (k : Kernel) (Q : α -> Kernel -> Prop) : Prop :=
  code.Keeps Extends Q k

theorem writes_bind {α β : Type} {code : Task α} {f : α -> Task β} {Q : α -> Kernel -> Prop}
    {Q' : β -> Kernel -> Prop} (h : Writes code k Q)
    (hrest : forall a k', Extends k k' -> Q a k' -> Writes (f a) k' Q') :
    Writes (code >>= f) k Q' := by
  apply Code.keeps_bind (Code.keeps_related Extends.refl (fun _ _ _ => Extends.trans) h)
  intro a k' hend
  rcases hend with ⟨hextends, hend⟩
  exact hrest a k' hextends hend

/-!
# The updates
-/

theorem extends_setLogger {logger : Logger} (h : k.logger.getLogs <+: logger.getLogs) :
    Extends k (k.setLogger logger) :=
  { Extends.refl k with log := h }

theorem extends_setInitrd (h : k.initrd = none) (initrd : Initrd) :
    Extends k (k.setInitrd initrd) :=
  { Extends.refl k with
    initrd := fun _ hother => nomatch h.symm.trans hother
    drawable := fun _ _ => Option.some_ne_none initrd }

theorem extends_setVga {initrd : Initrd} (h : k.initrd = some initrd) {vga : Vga}
    (hsize : forall other, k.vga = some other -> other.SameSize vga) : Extends k (k.setVga vga) :=
  { Extends.refl k with
    vga := fun other hother => ⟨vga, rfl, hsize other hother⟩
    drawable := fun _ _ hnone => nomatch h.symm.trans hnone }

theorem extends_draw (k : Kernel) (pixels : List Pixel) : Extends k (k.draw pixels) :=
  { Extends.refl k with drawn := List.prefix_append _ _ }

theorem extends_setScheduler (k : Kernel) (scheduler : Scheduler) :
    Extends k (k.setScheduler scheduler) :=
  { Extends.refl k with scheduler := fun _ => Option.some_ne_none scheduler }

theorem extends_setSerial (k : Kernel) : Extends k (k.setSerial ()) :=
  { Extends.refl k with serial := fun _ => Option.some_ne_none () }

theorem extends_increment (k : Kernel) : Extends k k.increment :=
  { Extends.refl k with }

theorem extends_transmit (k : Kernel) (bytes : List UInt8) : Extends k (k.transmit bytes) :=
  { Extends.refl k with transmitted := List.prefix_append _ _ }

theorem extends_setVgaConsole (h : k.vgaConsole = none) (shell : Shell) :
    Extends k (k.setVgaConsole shell) :=
  { Extends.refl k with vgaConsole := fun _ hother => nomatch h.symm.trans hother }

theorem extends_setSerialConsole (h : k.serialConsole = none) (shell : Shell) :
    Extends k (k.setSerialConsole shell) :=
  { Extends.refl k with serialConsole := fun _ hother => nomatch h.symm.trans hother }

theorem extends_setBuffer {shell : Shell} (h : k.serialConsole = some shell)
    (buffer : List Char) : Extends k (k.setSerialConsole { shell with buffer := buffer }) :=
  { Extends.refl k with
    serialConsole := by
      intro other hother
      rw [← Option.some.inj (h.symm.trans hother)]
      exact ⟨buffer, rfl⟩ }

/-!
# The log
-/

theorem log_grows (logger : Logger) (level : Level) (message : String) :
    logger.getLogs <+: (logger.log level message).getLogs :=
  List.prefix_append _ _

theorem log_writes (k : Kernel) (level : Level) (message : String) :
    Writes (log level message) k fun _ k' =>
      k' = k.setLogger (k.logger.log level message) :=
  Code.keeps_locked (Code.keeps_modify (extends_setLogger (log_grows _ _ _)) rfl)

theorem logAll_writes (k : Kernel) (logs : List Log) :
    Writes (logAll logs) k fun _ k' => k' = k.setLogger (k.logger.record logs) := by
  unfold logAll
  induction logs generalizing k with
  | nil => exact (rfl : k = k.setLogger (k.logger.record []))
  | cons record rest ih =>
      apply Code.keeps_bind (log_writes k record.level record.message)
      intro _ _ hend
      subst hend
      exact ih (k.setLogger (k.logger.log record.level record.message))

/-!
# Statics
-/

def SameShells (k k' : Kernel) : Prop :=
  k'.serialConsole = k.serialConsole ∧ k'.vgaConsole = k.vgaConsole

theorem SameShells.trans (h : SameShells k k') (h' : SameShells k' k'') : SameShells k k'' :=
  ⟨h'.1.trans h.1, h'.2.trans h.2⟩

theorem body_prefix {display : Initrd.File -> Outcome String} {ram : Ram}
    {walk walk' : Initrd.Walk} (h : Initrd.body display ram walk = .ok walk') :
    walk.logger.getLogs <+: walk'.logger.getLogs := by
  rw [Initrd.body_eq] at h
  rcases Outcome.bind_eq_ok_iff.mp h with ⟨header, _, h⟩
  rcases Outcome.bind_eq_ok_iff.mp h with ⟨line, _, h⟩
  cases h
  exact log_grows _ _ _

theorem walkRamdisk_writes (passes : Nat) (k : Kernel) (address : Nat)
    (files : List Initrd.File) :
    Writes (walkRamdisk env passes address files) k fun _ k' =>
      exists logger, k' = k.setLogger logger := by
  induction passes generalizing k address files with
  | zero => exact trivial
  | succ passes ih =>
      cases Classical.em (Initrd.parseBlock env.ram address blockSize ≠ eofBlock) with
      | inl hguard =>
          rw [walkRamdisk, if_pos hguard]
          apply Code.keeps_bind_get
          apply Code.keeps_bind_lift
          intro walk hbody
          have hgrows : k.logger.getLogs <+: walk.logger.getLogs := body_prefix hbody
          apply Code.keeps_bind (Code.keeps_locked (Q := fun _ k' => k' = k.setLogger walk.logger)
            (Code.keeps_modify (extends_setLogger hgrows) rfl))
          intro _ _ hend
          subst hend
          apply Code.keeps_mono (ih _ walk.address walk.files)
          intro initrd _ hend
          rcases hend with ⟨logger, rfl⟩
          exact ⟨logger, rfl⟩
      | inr hguard =>
          rw [walkRamdisk, if_neg hguard]
          exact ⟨k.logger, rfl⟩

theorem ramdisk_writes (k : Kernel) :
    Writes (ramdisk env) k fun initrd k' =>
      k'.initrd = some initrd ∧ k'.vga = k.vga ∧ SameShells k k' := by
  apply Code.keeps_force
  · intro initrd hinitrd
    exact ⟨hinitrd, rfl, rfl, rfl⟩
  · intro hnone
    apply Code.keeps_bind_lift
    intro address _
    apply Code.keeps_mono (walkRamdisk_writes env.passes k address [])
    intro initrd _ hend
    rcases hend with ⟨logger, rfl⟩
    have hlogged : (k.setLogger logger).initrd = none := hnone
    exact ⟨extends_setInitrd hlogged initrd, rfl, rfl, rfl, rfl⟩

theorem vgaStatic_writes (hdrawable : Drawable k) :
    Writes (vgaStatic env) k fun vga k' =>
      k'.vga = some vga ∧ (exists initrd, k'.initrd = some initrd) ∧ SameShells k k' := by
  apply Code.keeps_force
  · intro vga hvga
    exact ⟨hvga, Option.ne_none_iff_exists'.mp (hdrawable (by simp [hvga])), rfl, rfl⟩
  · intro hnone
    apply Code.keeps_bind (ramdisk_writes k)
    intro initrd k1 hend
    rcases hend with ⟨hinitrd, hvga, hshells⟩
    apply Code.keeps_bind_lift
    intro font _
    apply Code.keeps_lift
    intro vga _
    have hunmade : forall other, k1.vga = some other -> other.SameSize vga :=
      fun other hother => nomatch (hvga.trans hnone).symm.trans hother
    exact ⟨extends_setVga hinitrd hunmade, rfl, ⟨initrd, hinitrd⟩, hshells⟩

theorem newShell_writes (k : Kernel) :
    Writes (newShell env) k fun _ k' => SameShells k k' := by
  apply Code.keeps_bind (ramdisk_writes k)
  intro initrd k1 hend
  rcases hend with ⟨_, _, hshells⟩
  exact Code.keeps_lift fun _ _ => hshells

theorem serialConsoleStatic_writes (k : Kernel) :
    Writes (serialConsoleStatic env) k fun shell k' => k'.serialConsole = some shell := by
  apply Code.keeps_force
  · exact fun _ hshell => hshell
  · intro hnone
    apply Code.keeps_mono (newShell_writes k)
    intro shell k1 hend
    rcases hend with ⟨hserial, _⟩
    exact ⟨extends_setSerialConsole (hserial.trans hnone) shell, rfl⟩

theorem serialStatic_writes (k : Kernel) :
    Writes (serialStatic env) k fun _ k' => SameShells k k' := by
  apply Code.keeps_force
  · exact fun _ _ => ⟨rfl, rfl⟩
  · intro _
    split
    · exact ⟨extends_setSerial k, rfl, rfl⟩
    · exact trivial

theorem schedulerStatic_writes (k : Kernel) :
    Writes schedulerStatic k fun _ k' => SameShells k k' := by
  apply Code.keeps_force
  · exact fun _ _ => ⟨rfl, rfl⟩
  · intro _
    apply Code.keeps_bind (logAll_writes k (Scheduler.new 100).2)
    intro _ _ hend
    subst hend
    exact ⟨extends_setScheduler _ _, rfl, rfl⟩

/-!
# The framebuffer
-/

theorem drawing_writes {initrd : Initrd} {vga : Vga} (hinitrd : k.initrd = some initrd)
    (hvga : k.vga = some vga) {picture : Traced Pixel Vga}
    (hsize : forall after, picture.result = .ok after -> vga.SameSize after) :
    Writes (drawing picture) k fun _ k' => exists after, picture.result = .ok after ∧
      k' = k.present after picture.emitted := by
  apply Code.keeps_bind (Code.keeps_modify (Q := fun _ k' => k' = k.draw picture.emitted)
    (extends_draw k _) rfl)
  intro _ _ hend
  subst hend
  apply Code.keeps_bind_lift
  intro after hresult
  have hdrawn : (k.draw picture.emitted).initrd = some initrd := hinitrd
  have hsame : forall other, (k.draw picture.emitted).vga = some other -> other.SameSize after := by
    intro other hother
    rw [← Option.some.inj (hvga.symm.trans hother)]
    exact hsize after hresult
  exact Code.keeps_modify (extends_setVga hdrawn hsame) ⟨after, hresult, rfl⟩

theorem clear_writes (hdrawable : Drawable k) :
    Writes (clear env) k fun _ k' => exists initrd, exists vga : Vga, exists after before,
      vga.clear.result = .ok after ∧ k'.initrd = some initrd ∧ k'.vga = some after ∧
        k'.drawn = before ++ vga.clear.emitted ∧ SameShells k k' := by
  apply Code.keeps_bind (vgaStatic_writes hdrawable)
  intro vga k1 hend
  rcases hend with ⟨hvga, ⟨initrd, hinitrd⟩, hshells⟩
  apply Code.keeps_mono (drawing_writes hinitrd hvga fun _ => Vga.clear_sameSize)
  intro _ _ hend
  rcases hend with ⟨after, hresult, rfl⟩
  exact ⟨initrd, vga, after, k1.drawn, hresult, hinitrd, rfl, rfl, hshells⟩

theorem write_writes (hdrawable : Drawable k) (s : String) :
    Writes (write env s) k fun _ _ => True := by
  apply Code.keeps_bind (vgaStatic_writes hdrawable)
  intro vga k1 hend
  rcases hend with ⟨hvga, _⟩
  apply Code.keeps_bind (ramdisk_writes k1)
  intro initrd k2 hend
  rcases hend with ⟨hinitrd, hsame, _⟩
  exact Code.keeps_mono (drawing_writes hinitrd (hsame.trans hvga) fun _ => Vga.writeStr_sameSize)
    fun _ _ _ => trivial

theorem write_draws {initrd : Initrd} {vga : Vga} (hinitrd : k.initrd = some initrd)
    (hvga : k.vga = some vga) (s : String) :
    Writes (write env s) k fun _ k' => exists after,
      (vga.writeStr env.profile initrd s).result = .ok after ∧
        k' = k.present after (vga.writeStr env.profile initrd s).emitted := by
  apply Code.keeps_bind_force_some hvga
  apply Code.keeps_bind_force_some hinitrd
  exact drawing_writes hinitrd hvga fun _ => Vga.writeStr_sameSize

theorem newVgaShell_writes (hdrawable : Drawable k) (x y : Nat) :
    Writes (newVgaShell env x y) k fun _ k' => SameShells k k' := by
  apply writes_bind (clear_writes hdrawable)
  intro _ k1 hextends hend
  rcases hend with ⟨_, _, _, _, _, _, _, _, hshells⟩
  apply Code.keeps_bind (vgaStatic_writes (hextends.drawable hdrawable))
  intro vga k2 hend
  rcases hend with ⟨hvga, ⟨initrd, hinitrd⟩, hshells2⟩
  have hsame : forall other, k2.vga = some other ->
      other.SameSize (vga.setCursor x y Color.white Color.black) := by
    intro other hother
    rw [← Option.some.inj (hvga.symm.trans hother)]
    exact vga.setCursor_sameSize _ _ _ _
  apply Code.keeps_bind (Code.keeps_modify (Q := fun _ k' => SameShells k k')
    (extends_setVga hinitrd hsame) (hshells.trans hshells2))
  intro _ k3 hshells3
  exact Code.keeps_mono (newShell_writes k3) fun _ _ h => hshells3.trans h

theorem vgaConsoleStatic_writes (hdrawable : Drawable k) :
    Writes (vgaConsoleStatic env) k fun _ _ => True := by
  apply Code.keeps_force
  · exact fun _ _ => trivial
  · intro hnone
    apply writes_bind (vgaStatic_writes hdrawable)
    intro vga k1 hextends hend
    rcases hend with ⟨_, _, hshells⟩
    apply Code.keeps_locked
    apply Code.keeps_mono (newVgaShell_writes (hextends.drawable hdrawable) _ _)
    intro shell k2 hshells2
    exact ⟨extends_setVgaConsole ((hshells.trans hshells2).2.trans hnone) shell, trivial⟩

theorem displayVga_writes (hdrawable : Drawable k) (shell : Shell) :
    Writes (displayVga env shell) k fun _ _ => True := by
  apply writes_bind (ramdisk_writes k)
  intro initrd k1 hextends _
  apply Code.keeps_bind_lift
  intro texts _
  let Inv : List String -> Kernel -> Prop := fun _ => Drawable
  have hinit : Inv texts k1 := hextends.drawable hdrawable
  apply Code.keeps_mono (Code.keeps_forEach hinit _) fun _ _ _ => trivial
  intro text rest k2 hdrawable2
  apply Code.keeps_mono (Code.keeps_related Extends.refl (fun _ _ _ => Extends.trans)
    (write_writes hdrawable2 text))
  intro _ k3 hend
  rcases hend with ⟨hextends3, _⟩
  exact hextends3.drawable hdrawable2

/-!
# The handlers
-/

theorem endOfInterrupt_writes (k : Kernel) : Writes endOfInterrupt k fun _ _ => True :=
  Code.keeps_locked trivial

theorem tick_writes (k : Kernel) : Writes tick k fun _ _ => True := by
  apply Code.keeps_bind (schedulerStatic_writes k)
  intro scheduler k1 _
  apply Code.keeps_bind_lift
  intro result _
  apply Code.keeps_bind (logAll_writes k1 result.2)
  intro _ k2 _
  exact Code.keeps_modify (extends_setScheduler k2 result.1) trivial

theorem timerHandler_writes (k : Kernel) : Writes timerHandler k fun _ _ => True := by
  apply Code.keeps_bind (Code.keeps_modify (Q := fun _ _ => True) (extends_increment k) trivial)
  intro _ k1 _
  apply Code.keeps_bind (schedulerStatic_writes k1)
  intro _ k2 _
  apply Code.keeps_bind (Code.keeps_locked (tick_writes k2))
  intro _ k3 _
  exact endOfInterrupt_writes k3

theorem keyboardHandler_writes (hdrawable : Drawable k) (scanCode : Nat) :
    Writes (keyboardHandler env scanCode) k fun _ _ => True := by
  refine Code.keeps_bind (Q := fun _ _ => True) ?_ fun _ k1 _ => endOfInterrupt_writes k1
  apply Code.keeps_locked
  apply writes_bind (log_writes k _ _)
  intro _ k1 hextends _
  split
  · apply writes_bind (vgaConsoleStatic_writes (hextends.drawable hdrawable))
    intro shell k2 hextends2 _
    have hdrawable2 : Drawable k2 := hextends2.drawable (hextends.drawable hdrawable)
    apply Code.keeps_locked
    apply writes_bind (vgaStatic_writes hdrawable2)
    intro _ k3 hextends3 _
    exact Code.keeps_locked (displayVga_writes (hextends3.drawable hdrawable2) shell)
  · exact trivial

theorem guarded_writes {body : Task Unit} {P : Kernel -> Prop}
    (hscheduler : forall k', P k -> SameShells k k' -> P k')
    (hbody : forall k', P k' -> Writes body k' fun _ _ => True) (hk : P k) (command : String) :
    Writes (guarded command body) k fun _ _ => True := by
  unfold guarded
  split
  case h_1 =>
    apply Code.keeps_bind (schedulerStatic_writes k)
    intro _ k1 hshells
    exact Code.keeps_locked (hbody k1 (hscheduler k1 hk hshells))
  case h_2 => exact Code.keeps_locked (hbody k hk)
  case h_3 => exact hbody k hk

theorem transmitText_writes (k : Kernel) (s : String) :
    Writes (transmitText s) k fun _ k' => SameShells k k' :=
  Code.keeps_modify (extends_transmit k _) ⟨rfl, rfl⟩

theorem runCommand_writes (k : Kernel) (initrd : Initrd) (console : Console) (command : String)
    (argument : Option String) :
    Writes (runCommand env initrd console command argument) k fun result k' =>
      result.1.shell = console.shell ∧ SameShells k k' := by
  apply Code.keeps_bind_lift
  intro result hexecute
  apply Code.keeps_bind (Code.keeps_modify (Q := fun _ k' => SameShells k k')
    (extends_setScheduler k _) ⟨rfl, rfl⟩)
  intro _ k1 hshells
  exact ⟨Console.execute_shell hexecute, hshells⟩

theorem interpretWith_writes (k : Kernel) (initrd : Initrd) (console : Console) (byte : UInt8) :
    Writes (console.interpretWith transmitText (runCommand env initrd) byte) k fun after k' =>
      (exists buffer, after.shell = { console.shell with buffer := buffer }) ∧
        SameShells k k' := by
  by_cases hreturn : Serial.read byte = '\r'
  · rw [Console.interpretWith_return _ _ hreturn]
    apply Code.keeps_bind (transmitText_writes k _)
    intro _ k1 hshells1
    apply Code.keeps_bind (runCommand_writes k1 initrd console _ _)
    intro result k2 hend
    rcases hend with ⟨hshell, hshells2⟩
    apply Code.keeps_bind (transmitText_writes k2 _)
    intro _ k3 hshells3
    apply Code.keeps_bind (transmitText_writes k3 _)
    intro _ k4 hshells4
    refine ⟨⟨[], ?_⟩, ((hshells1.trans hshells2).trans hshells3).trans hshells4⟩
    rw [← hshell]
    rfl
  · rw [Console.interpretWith_edit _ _ hreturn]
    cases console.echo (Serial.read byte) with
    | none => exact ⟨⟨_, rfl⟩, rfl, rfl⟩
    | some text =>
        apply Code.keeps_bind (transmitText_writes k text)
        intro _ k1 hshells
        exact ⟨⟨_, rfl⟩, hshells⟩

theorem feed_writes {shell : Shell} (hshell : k.serialConsole = some shell) (initrd : Initrd)
    (scheduler : Scheduler) (byte : UInt8) :
    Writes (feed env initrd shell scheduler byte) k fun _ _ => True := by
  apply Code.keeps_bind_get
  apply Code.keeps_bind (interpretWith_writes k initrd _ byte)
  intro after k1 hend
  rcases hend with ⟨⟨buffer, hafter⟩, hshells⟩
  rw [hafter]
  exact Code.keeps_modify (extends_setBuffer (hshells.1.trans hshell) buffer) trivial

theorem interpret_writes (k : Kernel) (byte : UInt8) :
    Writes (interpret env byte) k fun _ _ => True := by
  apply Code.keeps_bind (serialConsoleStatic_writes k)
  intro shell k1 hshell
  apply Code.keeps_bind (schedulerStatic_writes k1)
  intro scheduler k2 hshells
  apply Code.keeps_bind (ramdisk_writes k2)
  intro initrd k3 hend
  rcases hend with ⟨_, _, hshells3⟩
  apply guarded_writes (P := fun k => k.serialConsole = some shell)
  · exact fun _ hsome hsame => hsame.1.trans hsome
  · exact fun _ hsome => feed_writes hsome initrd scheduler byte
  · exact (hshells.trans hshells3).1.trans hshell

theorem serialHandler_writes (k : Kernel) (byte : UInt8) :
    Writes (serialHandler env byte) k fun _ _ => True := by
  apply Code.keeps_bind (serialConsoleStatic_writes k)
  intro _ k1 _
  refine Code.keeps_bind (Q := fun _ _ => True) ?_ fun _ k2 _ => endOfInterrupt_writes k2
  apply Code.keeps_locked
  apply Code.keeps_bind (serialStatic_writes k1)
  intro _ k2 _
  exact Code.keeps_locked (interpret_writes k2 byte)

end Kernel

end NeurOS
