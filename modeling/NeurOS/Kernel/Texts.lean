import NeurOS.Kernel.Audit
import NeurOS.Vga.Legible
import NeurOS.Vga.Report

/-!
# The records can be drawn

Every character of a record has a place in the font: the texts of the kernel are plain,
numbers are digits, and the listing of a file adds the names in its header.  A booted
kernel keeps to this whatever interrupts it serves.
-/

namespace NeurOS

open Foundation

namespace Letter

theorem plainText_toString (n : Nat) : PlainText (toString n) :=
  plainText_of_printable fun _ hc =>
    have hbounds := Text.mem_toString hc
    Or.inr ⟨by lia, by lia⟩

theorem digitChar_printable (digit : Nat) :
    32 <= (Nat.digitChar digit).toNat ∧ (Nat.digitChar digit).toNat <= 126 := by
  have hdigits : forall digit, digit < 16 ->
      32 <= (Nat.digitChar digit).toNat ∧ (Nat.digitChar digit).toNat <= 126 := by
    decide
  by_cases hdigit : digit < 16
  · exact hdigits digit hdigit
  · rw [Nat.digitChar_eq_star.mpr (Nat.le_of_not_lt hdigit)]
    simp

theorem plainText_hex (n : Nat) : PlainText (Elf.hex n) := by
  have hdigit (digit : Nat) : Plain (Nat.digitChar digit) :=
    plain_of_printable (digitChar_printable digit).1 (digitChar_printable digit).2
  unfold PlainText Elf.hex
  rw [String.toList_ofList]
  induction n using Nat.strong_induction_on with
  | _ n ih =>
      by_cases hlt : n < 16
      · rw [Nat.toDigits_of_lt_base hlt, List.forall_mem_singleton]
        exact Or.inr (hdigit n)
      · rw [Nat.toDigits_of_base_le (by lia) (Nat.le_of_not_lt hlt), List.forall_mem_append,
          List.forall_mem_singleton]
        exact ⟨ih (n / 16) (by lia), Or.inr (hdigit (n % 16))⟩

end Letter

open Letter

/-!
# The listing of a file
-/

namespace Initrd.File

theorem plainText_triple (bits : Nat) : PlainText (triple bits) := by
  intro c hc
  unfold triple at hc
  simp only [String.toList_ofList, List.mem_cons, List.not_mem_nil, or_false] at hc
  rcases hc with rfl | rfl | rfl <;> split <;>
    exact Or.inr (plain_of_printable (by simp) (by simp))

theorem plainText_twoDigits (n : Nat) : PlainText (twoDigits n) := by
  unfold twoDigits
  split
  · exact plainText_append_iff.mpr ⟨plainText_of_all rfl, plainText_toString n⟩
  · exact plainText_toString n

theorem plainText_convert {profile : Profile} {timestamp : Nat} {text : String}
    (h : convert profile timestamp = .ok text) : PlainText text := by
  unfold convert parseTimestamp at h
  cases hrun : (years profile).run yearPasses
      { seconds := timestamp, year := unixEpochYear, yearSeconds := 0 } with
  | none =>
      rw [hrun] at h
      cases h
  | some result =>
      rw [hrun, Option.map_some, Option.getD_some] at h
      simp only [Outcome.bind_eq_ok_iff] at h
      rcases h with ⟨state, _, ⟨month, seconds⟩, _, heq⟩
      rw [← Except.ok.inj heq]
      have hdash : PlainText (toString "-") := plainText_of_all rfl
      have hcolon : PlainText (toString ":") := plainText_of_all rfl
      have hblank : PlainText (toString " ") := plainText_of_all rfl
      have hnumber (n : Nat) : PlainText (toString (twoDigits n)) := plainText_twoDigits n
      simp only [plainText_append_iff, plainText_toString, hnumber, hdash, hcolon, hblank, and_self]

theorem plainText_display {profile : Profile} {file : File} {text : String}
    (h : display profile file = .ok text) (huser : PlainText file.header.username)
    (hgroup : PlainText file.header.group) (hname : PlainText file.header.name) :
    PlainText text := by
  unfold display fmt at h
  simp only [Outcome.bind_eq_ok_iff] at h
  rcases h with ⟨digits, _, owner, _, group, _, other, _, date, hdate, heq⟩
  rw [← Except.ok.inj heq]
  have hblank : PlainText (toString " ") := plainText_of_all rfl
  have hslash : PlainText (toString "/") := plainText_of_all rfl
  have hflag : PlainText (toString (if file.header.flag = 5 then 'd' else '-')) := by
    split <;> exact plainText_of_all rfl
  have hpermissions : PlainText (toString
      (toString (if file.header.flag = 5 then 'd' else '-') ++ toString (triple owner) ++
        toString (triple group) ++ toString (triple other))) :=
    plainText_append_iff.mpr ⟨plainText_append_iff.mpr ⟨plainText_append_iff.mpr
      ⟨hflag, plainText_triple owner⟩, plainText_triple group⟩, plainText_triple other⟩
  have hdateText : PlainText (toString date) := plainText_convert hdate
  have huserText : PlainText (toString file.header.username) := huser
  have hgroupText : PlainText (toString file.header.group) := hgroup
  have hnameText : PlainText (toString file.header.name) := hname
  simp only [parsePermission_eq]
  rw [plainText_append_iff, plainText_append_iff, plainText_append_iff, plainText_append_iff,
    plainText_append_iff, plainText_append_iff, plainText_append_iff, plainText_append_iff,
    plainText_append_iff, plainText_append_iff]
  simp only [hpermissions, huserText, hgroupText, plainText_toString, hdateText, hnameText, hblank,
    hslash, and_self]

end Initrd.File

/-!
# The records of the kernel
-/

def PlainLog (records : List Log) : Prop :=
  forall record, record ∈ records -> record.Plain

theorem plainLog_append {records news : List Log} (h : PlainLog records)
    (hnews : PlainLog news) : PlainLog (records ++ news) :=
  List.forall_mem_append.mpr ⟨h, hnews⟩

theorem plainLog_single {record : Log} (h : record.Plain) :
    PlainLog [record] :=
  List.forall_mem_singleton.mpr h

theorem inFont_of_plain {s : String} (h : PlainText s) : Vga.InFont s := by
  intro c hc
  rcases h c hc with rfl | hplain
  · simp
  · exact Nat.le_of_lt hplain.inFont

theorem inFont_fmt {record : Log} (h : record.Plain) : Vga.InFont (record.fmt ++ "\n") := by
  have hlabel : Vga.InFont record.level.label := by
    cases record.level <;> exact Vga.inFont_of_all (by decide +kernel)
  have hblank : Vga.InFont " " := Vga.inFont_of_all rfl
  have hnewline : Vga.InFont "\n" := Vga.inFont_of_all rfl
  unfold Log.fmt
  simp only [Vga.inFont_append_iff]
  exact ⟨⟨⟨hlabel, hblank⟩, inFont_of_plain h⟩, hnewline⟩

theorem plainText_startedRecord (pid : Nat) : Log.Plain (startedRecord pid) := by
  unfold startedRecord Log.Plain
  simp only [plainText_append_iff]
  exact ⟨⟨⟨⟨plainText_of_all rfl, plainText_toString pid⟩, plainText_of_all rfl⟩,
    plainText_of_all rfl⟩, plainText_of_all rfl⟩

theorem plainText_stoppedRecord (pid : Nat) : Log.Plain (stoppedRecord pid) := by
  unfold stoppedRecord Log.Plain
  simp only [plainText_append_iff]
  exact ⟨⟨⟨⟨plainText_of_all rfl, plainText_toString pid⟩, plainText_of_all rfl⟩,
    plainText_of_all rfl⟩, plainText_of_all rfl⟩

theorem plainText_receivedRecord (scanCode : Nat) : Log.Plain (receivedRecord scanCode) := by
  unfold receivedRecord Log.Plain
  simp only [plainText_append_iff]
  exact ⟨⟨plainText_of_all rfl, plainText_hex scanCode⟩, plainText_of_all rfl⟩

/-!
# Every interrupt
-/

namespace Desk

variable {profile : Profile} {initrd : Initrd} {desk after : Desk} {bytes : List UInt8}

structure Drawable (booted : List Log) (desk : Desk) : Prop where
  audited : Audited booted desk
  records : PlainLog desk.console.logger.getLogs

theorem tick_drawable {booted : List Log} (h : Drawable booted desk) {scheduler : Scheduler}
    {logs : List Log} (htick : desk.console.scheduler.tick = .ok (scheduler, logs)) :
    PlainLog (Kernel.ticked desk (scheduler, logs)).console.logger.getLogs := by
  have hlogger : (Kernel.ticked desk (scheduler, logs)).console.logger.getLogs =
      desk.console.logger.getLogs ++ logs := Logger.record_getLogs _ _
  rw [hlogger]
  apply plainLog_append h.records
  rcases Scheduler.tick_logs htick with ⟨_, rfl | rfl⟩ |
    ⟨current, second, rest, hold, _, hlogs⟩
  · exact fun _ hmem => nomatch hmem
  · exact plainLog_single (plainText_of_all rfl)
  · have hcurrent : current.getName = "kernel" := h.audited.names current (by rw [hold]; simp)
    have hsecond : second.getName = "kernel" := h.audited.names second (by rw [hold]; simp)
    rw [hcurrent, hsecond] at hlogs
    have hrecords : logs = [stoppedRecord current.getId] ++ [startedRecord second.getId] := hlogs
    rw [hrecords]
    exact plainLog_append (plainLog_single (plainText_stoppedRecord _))
      (plainLog_single (plainText_startedRecord _))

theorem press_drawable {booted : List Log} (h : Drawable booted desk) (scanCode : Nat) :
    PlainLog (Kernel.pressed desk scanCode).console.logger.getLogs :=
  plainLog_append h.records (plainLog_single (plainText_receivedRecord scanCode))

theorem step_drawable {booted : List Log} (h : Drawable booted desk) {i : Interrupt}
    (hstep : (machine profile initrd).step desk i = .ok (after, bytes)) :
    Drawable booted after := by
  refine ⟨step_audited h.audited hstep, ?_⟩
  cases i with
  | timer =>
      rw [Kernel.step_timer] at hstep
      rcases Outcome.bind_eq_ok_iff.mp hstep with ⟨⟨scheduler, logs⟩, htick, heq⟩
      cases heq
      exact tick_drawable h htick
  | keyboard scanCode =>
      by_cases henter : scanCode = Screen.enter
      · subst henter
        rw [Kernel.step_enter] at hstep
        rcases Outcome.bind_eq_ok_iff.mp hstep with ⟨console, _, hrest⟩
        rcases Outcome.bind_eq_ok_iff.mp hrest with ⟨vga, _, heq⟩
        cases heq
        exact press_drawable h Screen.enter
      · rw [Kernel.step_other _ _ _ henter] at hstep
        cases hstep
        exact press_drawable h scanCode
  | serial byte =>
      rcases Outcome.bind_eq_ok_iff.mp hstep with ⟨⟨console, answer⟩, hreply, heq⟩
      cases heq
      rcases Console.reply_frame hreply with ⟨_, _, hafter⟩
      rw [hafter]
      exact h.records

theorem machine_drawable (profile : Profile) (initrd : Initrd) (booted : List Log) :
    (machine profile initrd).Preserves (Drawable booted) :=
  fun _ _ _ _ h hstep => step_drawable h hstep

end Desk

namespace Kernel

variable {env : Environment} {held : List Lock} {k : Kernel} {is : List Interrupt}

theorem booted_drawable (startup : Startup env) (h : PlainLog startup.lines) :
    Desk.Drawable startup.records startup.desk := by
  have hcores : PlainText (coresRecord startup.count).message := by
    unfold coresRecord
    simp only [plainText_append_iff]
    exact ⟨⟨plainText_of_all rfl, plainText_toString _⟩, plainText_of_all rfl⟩
  have hloaded : PlainText (loadedRecord startup.initrd).message := by
    unfold loadedRecord
    simp only [plainText_append_iff]
    exact ⟨⟨plainText_of_all rfl, plainText_toString _⟩, plainText_of_all rfl⟩
  have hscheduler : PlainLog (Scheduler.new 100).2 :=
    plainLog_single (plainText_of_all rfl)
  have hsuccess : PlainText successRecord.message := plainText_of_all rfl
  have hfront : PlainLog (coresRecord startup.count :: startup.lines) :=
    List.forall_mem_cons.mpr ⟨hcores, h⟩
  have hback : PlainLog (loadedRecord startup.initrd :: (Scheduler.new 100).2) :=
    List.forall_mem_cons.mpr ⟨hloaded, hscheduler⟩
  exact ⟨booted_audited startup, plainLog_append (plainLog_append hfront hback)
    (plainLog_single hsuccess)⟩

/-- Whatever interrupts a booted kernel has served, its log can be drawn if the listing of the
ramdisk can. -/
theorem plainLog_of_served (startup : Startup env) (hlines : PlainLog startup.lines)
    (h : ServedBy env is held k) : PlainLog k.logger.getLogs := by
  rcases simulates_of_served startup h with ⟨_, desk, answers, hdesk, hholds, _⟩
  have hdrawable := Machine.run_preserves (Desk.machine_drawable env.profile startup.initrd _)
    (booted_drawable startup hlines) hdesk
  rw [hholds.logger]
  exact hdrawable.records

end Kernel

end NeurOS
