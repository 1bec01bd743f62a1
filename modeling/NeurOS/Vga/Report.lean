import NeurOS.Vga.Letters

/-!
# The panic screen, point by point

The panic screen shows a page: its title in red and bold, an empty row, and the rows of
every record of the log, each behind the label of its level in its color.  The rest of
the screen is black.
-/

namespace NeurOS

open Foundation

namespace Level

def style : Level -> Style
  | debug => .green
  | error => .red
  | fatal => .orange
  | info => .blue
  | trace => .purple
  | warn => .yellow

def name : Level -> String
  | debug => "[DEBUG]"
  | error => "[ERROR]"
  | fatal => "[FATAL]"
  | info => "[INFO]"
  | trace => "[TRACE]"
  | warn => "[WARN]"

theorem label_eq (self : Level) :
    self.label = self.style.text ++ self.name ++ Style.default.text := by
  cases self <;> rfl

theorem style_color (self : Level) : self.style.sequence.color = some self.style.color := by
  rw [Style.sequence_color]
  cases self <;> rfl

theorem name_plain (self : Level) : forall c, c ∈ self.name.toList -> Letter.Plain c := by
  have hprintable : forall c, c ∈ self.name.toList -> 32 <= c.toNat ∧ c.toNat <= 126 := by
    cases self <;> simp [name]
  intro c hc
  exact Letter.plain_of_printable (hprintable c hc).1 (hprintable c hc).2

end Level

def Log.Plain (self : Log) : Prop :=
  Letter.PlainText self.message

/-- The rows of a record: its label in the color of its level, and its message in white. -/
def recordRows (font : Font) (log : Log) : List (List Letter) :=
  rows Color.white font (letters log.level.style.color font log.level.name.toList)
    (' ' :: log.message.toList)

def panicTitle : String := "[KERNEL PANIC]"

def logPage (normal bold : Font) (logs : List Log) : List (List Letter) :=
  letters Color.red bold panicTitle.toList :: [] :: logs.flatMap (recordRows normal)

def panicPage (normal bold : Font) (logger : Logger) (info : String) : List (List Letter) :=
  logPage normal bold (logger.log .fatal ("The kernel has panicked.\n" ++ info)).getLogs

/-!
# Writing the page
-/

namespace Vga

section Write

variable (profile : Profile) (initrd : Initrd)

theorem writeStr_record {log : Log} (hlog : log.Plain) {y : Nat} (hy : 12 <= y) (self : Vga)
    (fg : Nat) :
    (self.setCursor 8 y fg Color.black).writeStr profile initrd (log.fmt ++ "\n") =
      Traced.emits (pagePixels y (recordRows self.font log))
        (self.setCursor 8 (y + 16 * (recordRows self.font log).length) Color.white
          Color.black) := by
  have hchars : (log.fmt ++ "\n").toList = log.level.style.text.toList ++
      (log.level.name.toList ++
        (Style.default.text.toList ++ (' ' :: log.message.toList ++ ['\n']))) := by
    rw [Log.fmt, Level.label_eq]
    simp
  have hmessage : forall c, c ∈ ' ' :: log.message.toList -> c = '\n' ∨ Letter.Plain c := by
    rw [List.forall_mem_cons]
    exact ⟨Or.inr (Letter.plain_of_printable (by simp) (by simp)), hlog⟩
  have hwhite : Style.default.sequence.color = some Color.white := rfl
  let label := letters log.level.style.color self.font log.level.name.toList
  have hlength : label.length = 0 + log.level.name.toList.length := by simp [label, letters]
  rcases writeLoop_letters profile initrd log.level.name_plain hy
    (self.setCursor 8 y fg Color.black) 8 log.level.style.color 0
    (Style.default.text.toList ++ (' ' :: log.message.toList ++ ['\n'])) with ⟨cursor, hname⟩
  rcases writeLoop_rows profile initrd hmessage Color.white self.font
    { self with cursor := cursor } y label hy rfl with ⟨pixels, hrows, hpixels⟩
  rw [hlength] at hrows
  unfold writeStr
  rw [hchars]
  change writeLoop profile initrd Color.black (self.setCursor 8 y fg Color.black) 8 y fg 0 _ = _
  rw [writeLoop_color profile initrd Color.black log.level.style_color, hname,
    writeLoop_color profile initrd Color.black hwhite]
  change Traced.after _ (writeLoop profile initrd Color.black { self with cursor := cursor } 8 y
    Color.white _ _) = _
  rw [hrows, Traced.after_emits]
  unfold recordRows
  rw [← hpixels]
  rfl

theorem writeAll_records {logs : List Log} (hlogs : forall log, log ∈ logs -> log.Plain) {y : Nat}
    (hy : 12 <= y) (self : Vga) (fg : Nat) :
    exists below last,
      (self.setCursor 8 y fg Color.black).writeAll profile initrd
          (logs.map fun log => log.fmt ++ "\n") =
        Traced.emits (pagePixels y (logs.flatMap (recordRows self.font)))
          (self.setCursor 8 below last Color.black) := by
  induction logs generalizing y fg with
  | nil => exact ⟨y, fg, rfl⟩
  | cons log rest ih =>
      rw [List.forall_mem_cons] at hlogs
      rcases ih hlogs.2 (Nat.le_add_right_of_le hy) Color.white with ⟨below, last, hafter⟩
      refine ⟨below, last, ?_⟩
      rw [List.map_cons, writeAll, writeStr_record profile initrd hlogs.1 hy, Traced.emits_bind,
        hafter, Traced.after_emits, List.flatMap_cons, pagePixels_append]

variable {normal bold : Font} {initrd : Initrd}

theorem writeStr_title (hnormal : Font.new initrd Font.normalPath = .ok normal)
    (hbold : Font.new initrd Font.boldPath = .ok bold) (self : Vga) :
    (self.setCursor 8 24 Color.white Color.black).writeStr profile initrd
        (Ansi.bold ++ Ansi.red ++ panicTitle ++ Ansi.normal ++ "\n" ++ "\n") =
      Traced.emits (pagePixels 24 [letters Color.red bold panicTitle.toList, []])
        ((self.setFont normal).setCursor 8 56 Color.red Color.black) := by
  have hchars : (Ansi.bold ++ Ansi.red ++ panicTitle ++ Ansi.normal ++ "\n" ++ "\n").toList =
      Style.bold.text.toList ++ (Style.red.text.toList ++ (panicTitle.toList ++
        (Style.normal.text.toList ++ ['\n', '\n']))) := by
    simp [Style.text]
  have hprintable : forall c, c ∈ panicTitle.toList -> 32 <= c.toNat ∧ c.toNat <= 126 := by
    simp [panicTitle]
  have hplain : forall c, c ∈ panicTitle.toList -> Letter.Plain c := fun c hc =>
    Letter.plain_of_printable (hprintable c hc).1 (hprintable c hc).2
  have hred : Style.red.sequence.color = some Color.red := rfl
  have hboldPath : Style.bold.sequence.path = some Font.boldPath := rfl
  have hnormalPath : Style.normal.sequence.path = some Font.normalPath := rfl
  let start := (self.setCursor 8 24 Color.white Color.black).setFont bold
  rcases writeLoop_letters profile initrd hplain (show 12 <= 24 by lia) start 8 Color.red 0
    (Style.normal.text.toList ++ ['\n', '\n']) with ⟨cursor, htitle⟩
  unfold writeStr
  rw [hchars]
  change writeLoop profile initrd Color.black (self.setCursor 8 24 Color.white Color.black) 8 24
    Color.white 0 _ = _
  rw [writeLoop_font profile initrd Color.black hboldPath hbold,
    writeLoop_color profile initrd Color.black hred, htitle,
    writeLoop_font profile initrd Color.black hnormalPath hnormal, writeLoop_newline,
    writeLoop_newline, writeLoop]
  have hpixels : rowPixels (8 + 8 * 0) 24 (letters Color.red start.font panicTitle.toList) =
      pagePixels 24 [letters Color.red bold panicTitle.toList, []] := by
    simp [pagePixels, rowPixels, start, setFont]
  rw [hpixels]
  generalize pagePixels 24 [letters Color.red bold panicTitle.toList, []] = pixels
  exact congrArg (Traced.emits · _) (List.append_nil pixels)

theorem writeAll_page (hnormal : Font.new initrd Font.normalPath = .ok normal)
    (hbold : Font.new initrd Font.boldPath = .ok bold) {logs : List Log}
    (hlogs : forall log, log ∈ logs -> log.Plain) (self : Vga) :
    exists below last,
      (self.setCursor 8 24 Color.white Color.black).writeAll profile initrd
          ((Ansi.bold ++ Ansi.red ++ panicTitle ++ Ansi.normal ++ "\n" ++ "\n") ::
            logs.map fun log => log.fmt ++ "\n") =
        Traced.emits (pagePixels 24 (logPage normal bold logs))
          ((self.setFont normal).setCursor 8 below last Color.black) := by
  have hpage : logPage normal bold logs =
      [letters Color.red bold panicTitle.toList, []] ++ logs.flatMap (recordRows normal) := rfl
  rcases writeAll_records profile initrd hlogs (show 12 <= 56 by lia) (self.setFont normal)
    Color.red with ⟨below, last, hrecords⟩
  refine ⟨below, last, ?_⟩
  rw [writeAll, writeStr_title profile hnormal hbold, Traced.emits_bind, hrecords,
    Traced.after_emits, hpage, pagePixels_append]
  rfl

end Write

end Vga

/-!
# Where the page is drawn
-/

theorem letters_colored {fg : Nat} (h : fg < 2 ^ 32) (font : Font) (chars : List Char) :
    forall letter, letter ∈ letters fg font chars -> letter.Colored := by
  intro letter hletter
  rcases List.mem_map.mp hletter with ⟨_, _, rfl⟩
  exact h

theorem rows_colored {fg : Nat} (h : fg < 2 ^ 32) (font : Font) (chars : List Char) :
    forall current : List Letter, (forall letter, letter ∈ current -> letter.Colored) ->
      forall row, row ∈ rows fg font current chars ->
        forall letter, letter ∈ row -> letter.Colored := by
  induction chars with
  | nil =>
      intro current hcurrent row hrow
      rw [List.mem_singleton.mp hrow]
      exact hcurrent
  | cons c chars ih =>
      intro current hcurrent row hrow
      rw [rows] at hrow
      split at hrow
      · rcases List.mem_cons.mp hrow with rfl | hrow
        · exact hcurrent
        · exact ih [] (by simp) row hrow
      · refine ih _ ?_ row hrow
        rw [List.forall_mem_append, List.forall_mem_singleton]
        exact ⟨hcurrent, h⟩

theorem logPage_colored (normal bold : Font) (logs : List Log) :
    forall row, row ∈ logPage normal bold logs ->
      forall letter, letter ∈ row -> letter.Colored := by
  have hred : Color.red < 2 ^ 32 := by simp [Color.red]
  have hwhite : Color.white < 2 ^ 32 := by simp [Color.white]
  have hstyle : forall level : Level, level.style.color < 2 ^ 32 := by
    intro level
    cases level <;> decide
  unfold logPage
  rw [List.forall_mem_cons, List.forall_mem_cons]
  refine ⟨letters_colored hred bold _, by simp, ?_⟩
  intro row hrow
  rcases List.mem_flatMap.mp hrow with ⟨log, _, hrecord⟩
  exact rows_colored hwhite normal _ _ (letters_colored (hstyle log.level) normal _) row hrecord

theorem rows_length_le (fg : Nat) (font : Font) (chars : List Char) :
    forall current : List Letter, forall row, row ∈ rows fg font current chars ->
      row.length <= current.length + chars.length := by
  induction chars with
  | nil =>
      intro current row hrow
      rw [List.mem_singleton.mp hrow]
      exact Nat.le_add_right _ _
  | cons c chars ih =>
      intro current row hrow
      rw [rows] at hrow
      split at hrow
      · rcases List.mem_cons.mp hrow with rfl | hrow
        · exact Nat.le_add_right _ _
        · have hlength := ih [] row hrow
          rw [List.length_nil] at hlength
          rw [List.length_cons]
          lia
      · have hlength := ih _ row hrow
        rw [List.length_append, List.length_singleton] at hlength
        rw [List.length_cons]
        lia

theorem logPage_length_le (normal bold : Font) {logs : List Log} {n : Nat} (hn : 6 <= n)
    (h : forall log, log ∈ logs -> log.message.toList.length <= n) :
    forall row, row ∈ logPage normal bold logs -> row.length <= 8 + n := by
  have hlabel (level : Level) : level.name.toList.length <= 7 := by
    cases level <;> simp [Level.name]
  unfold logPage
  rw [List.forall_mem_cons, List.forall_mem_cons]
  refine ⟨?_, by simp, ?_⟩
  · show (letters Color.red bold panicTitle.toList).length <= 8 + n
    simp only [letters, List.length_map, panicTitle, String.reduceToList, List.length_cons,
      List.length_nil]
    lia
  · intro row hrow
    rcases List.mem_flatMap.mp hrow with ⟨log, hlog, hrecord⟩
    have hlength := rows_length_le _ _ _ _ row hrecord
    have hmessage := h log hlog
    have hname := hlabel log.level
    simp only [letters, List.length_map, List.length_cons] at hlength
    lia

theorem pixelAt_page {vga : Vga} (hpitch : 4 * vga.width <= vga.pitch)
    {page : List (List Letter)} (hpage : PageFits vga.width page) (ram : Ram) {x y : Nat}
    (hx : x < vga.width) (hy : y < vga.height) :
    pixelAt vga.pitch (paint vga.pitch ram (vga.clearPixels ++ pagePixels 24 page)) x y =
      (pageColor 24 page x y).getD Color.black := by
  have hinside : forall pixel, pixel ∈ vga.clearPixels ++ pagePixels 24 page ->
      pixel.x < vga.width ∧ pixel.color < 2 ^ 32 := by
    rw [List.forall_mem_append]
    refine ⟨?_, pagePixels_inside hpage 24⟩
    intro pixel hpixel
    rcases List.mem_flatMap.mp hpixel with ⟨row, _, hrow⟩
    rcases List.mem_map.mp hrow with ⟨column, hcolumn, rfl⟩
    exact ⟨List.mem_range.mp hcolumn, Nat.two_pow_pos 32⟩
  rw [pixelAt_paint hpitch hinside ram hx, colorAt_append,
    colorAt_pagePixels (show 12 <= 24 by lia), colorAt_clearPixels hx hy]
  cases pageColor 24 page x y with
  | none => rfl
  | some color => rfl

namespace Screen

section Panic

variable (profile : Profile) {initrd : Initrd} {normal bold : Font}
variable (hnormal : Font.new initrd Font.normalPath = .ok normal)
variable (hbold : Font.new initrd Font.boldPath = .ok bold)
variable {logger : Logger} {info : String}
variable (hlogs : forall log, log ∈ logger.getLogs -> log.Plain)
variable (hinfo : Letter.PlainText info)
include hnormal hbold hlogs hinfo

theorem panic_emits (vga : Vga) :
    exists after, panic profile initrd vga logger info =
      Traced.emits (vga.clearPixels ++ pagePixels 24 (panicPage normal bold logger info))
        after := by
  have hpanicked : Letter.PlainText "The kernel has panicked.\n" :=
    Letter.plainText_of_printable (by simp)
  have hplain : forall log,
      log ∈ (logger.log .fatal ("The kernel has panicked.\n" ++ info)).getLogs -> log.Plain := by
    intro log hlog
    rcases List.mem_append.mp hlog with hearlier | hlast
    · exact hlogs log hearlier
    · rw [List.mem_singleton.mp hlast]
      exact Letter.plainText_append_iff.mpr ⟨hpanicked, hinfo⟩
  rcases Vga.writeAll_page profile hnormal hbold hplain vga with ⟨below, last, hpage⟩
  refine ⟨(vga.setFont normal).setCursor 8 below last Color.black, ?_⟩
  rw [panic_eq]
  exact (congrArg (Traced.after vga.clearPixels) hpage).trans (Traced.after_emits _ _ _)

/-- With both fonts at hand, texts of plain characters, and rows that end on the screen, the
panic handler gets to its end and every point of the screen shows the page. -/
theorem panic_picture {vga : Vga} (hpitch : 4 * vga.width <= vga.pitch)
    (hwidth : forall row, row ∈ panicPage normal bold logger info ->
      8 + 8 * row.length <= vga.width) :
    (exists after, (panic profile initrd vga logger info).result = .ok after) ∧
      forall (ram : Ram) x y, x < vga.width -> y < vga.height ->
        pixelAt vga.pitch (paint vga.pitch ram (panic profile initrd vga logger info).emitted)
            x y =
          (pageColor 24 (panicPage normal bold logger info) x y).getD Color.black := by
  have hfits : PageFits vga.width (panicPage normal bold logger info) := fun row hrow =>
    ⟨logPage_colored normal bold _ row hrow, hwidth row hrow⟩
  rcases panic_emits profile hnormal hbold hlogs hinfo vga with ⟨after, hdrawn⟩
  rw [hdrawn]
  exact ⟨⟨after, rfl⟩, fun ram x y hx hy => pixelAt_page hpitch hfits ram hx hy⟩

end Panic

theorem panic_picture_sample :
    let logger := Logger.new.log .warn "Low."
    (exists after, (panic .dev fontInitrd fontVga logger "main.rs\nrow 1").result = .ok after) ∧
      forall (ram : Ram) x y, x < fontVga.width -> y < fontVga.height ->
        pixelAt fontVga.pitch
            (paint fontVga.pitch ram
              (panic .dev fontInitrd fontVga logger "main.rs\nrow 1").emitted) x y =
          (pageColor 24 (panicPage fontVga.font fontVga.font logger "main.rs\nrow 1") x
            y).getD Color.black := by
  intro logger
  have hinfo : Letter.PlainText "main.rs\nrow 1" := Letter.plainText_of_printable (by simp)
  have hplain : forall log, log ∈ logger.getLogs -> log.Plain := by
    intro log hlog
    rw [List.mem_singleton.mp hlog]
    exact Letter.plainText_of_printable (by simp)
  have hwidth : forall row : List Letter,
      row ∈ panicPage fontVga.font fontVga.font logger "main.rs\nrow 1" ->
        8 + 8 * row.length <= 640 := by
    simp [panicPage, logPage, panicTitle, recordRows, rows, letters, logger, Logger.log, Logger.new,
      Logger.getLogs, Level.name]
  exact panic_picture .dev (new_of_blankFont rfl) (new_of_blankFont rfl) hplain hinfo fontVga_pitch
    hwidth

end Screen

end NeurOS
