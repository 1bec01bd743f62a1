import NeurOS.Shell.Input
import NeurOS.Vga.Drawing

/-!
# Bounds of the framebuffer

The console and the panic screen clear the framebuffer and write texts from its
first cell on.  Every pixel stays inside exactly when every cell of the layout
fits; nothing scrolls, so enough texts leave the framebuffer.
-/

namespace NeurOS

open Foundation

/-- The pixel is visible, and its store of four bytes lies inside the framebuffer. -/
structure Pixel.Inside (pixel : Pixel) (vga : Vga) : Prop where
  x : pixel.x < vga.width
  y : pixel.y < vga.height
  store : pixel.offset vga.pitch + 4 <= vga.pitch * vga.height

theorem Pixel.inside_iff {vga : Vga} (hpitch : 4 * vga.width <= vga.pitch) (self : Pixel) :
    self.Inside vga <-> self.point.1 < vga.width ∧ self.point.2 < vga.height := by
  constructor
  · intro h
    exact ⟨h.x, h.y⟩
  · intro h
    rcases h with ⟨hx, hy⟩
    refine ⟨hx, hy, ?_⟩
    change self.x < vga.width at hx
    change self.y < vga.height at hy
    have hrow : (self.y + 1) * vga.pitch <= vga.height * vga.pitch :=
      Nat.mul_le_mul_right vga.pitch hy
    rw [Nat.succ_mul] at hrow
    unfold offset
    rw [Nat.mul_comm vga.pitch vga.height]
    lia

theorem inside_iff_fits {vga : Vga} (hpitch : 4 * vga.width <= vga.pitch)
    {pixels : List Pixel} {cells : List Cell}
    (h : pixels.map Pixel.point = cells.flatMap Cell.points) :
    (forall pixel, pixel ∈ pixels -> pixel.Inside vga) <->
      forall cell, cell ∈ cells -> cell.Fits vga.width vga.height := by
  have hpoints : (forall pixel, pixel ∈ pixels -> pixel.Inside vga) <->
      forall point, point ∈ pixels.map Pixel.point ->
        point.1 < vga.width ∧ point.2 < vga.height := by
    simp only [Pixel.inside_iff hpitch, List.forall_mem_map]
  rw [hpoints, h]
  simp only [Cell.fits_iff, List.mem_flatMap]
  constructor
  · intro hall cell hcell point hpoint
    exact hall point ⟨cell, hcell, hpoint⟩
  · intro hall point hpoint
    rcases hpoint with ⟨cell, hcell, hmem⟩
    exact hall cell hcell point hmem

/-!
# Clearing
-/

namespace Vga

def clearPixels (self : Vga) : List Pixel :=
  (List.range self.height).flatMap fun y =>
    (List.range self.width).map fun x => { x, y, color := Color.black }

theorem clear_eq (self : Vga) :
    self.clear =
      Traced.emits self.clearPixels (self.setCursor 8 24 Color.white Color.black) := by
  have hrow : forall y, y ∈ List.range self.height ->
      (List.range self.width).forM (fun x => drawPixel x y Color.black) =
        Traced.emits
          ((List.range self.width).map fun x => ({ x, y, color := Color.black } : Pixel)) ⟨⟩ := by
    intro y _
    rw [List.map_eq_flatMap]
    exact Traced.forM_emits (fun x _ => rfl)
  unfold clear
  rw [Traced.forM_emits hrow, Traced.emits_bind]
  change Traced.after _ (Traced.emits [] _) = _
  rw [Traced.after_emits, List.append_nil]
  rfl

theorem clearPixels_inside {self : Vga} (hpitch : 4 * self.width <= self.pitch)
    {pixel : Pixel} (h : pixel ∈ self.clearPixels) : pixel.Inside self := by
  rcases List.mem_flatMap.mp h with ⟨y, hy, hrow⟩
  rcases List.mem_map.mp hrow with ⟨x, hx, hpixel⟩
  rw [List.mem_range] at hx hy
  rw [Pixel.inside_iff hpitch, ← hpixel]
  exact ⟨hx, hy⟩

theorem cleared_inside_iff {self : Vga} (hpitch : 4 * self.width <= self.pitch)
    {view : α -> Vga} {t : Traced Pixel α} {layout : Layout} (h : Follows view t layout) :
    (forall pixel, pixel ∈ (Traced.after self.clearPixels t).emitted -> pixel.Inside self) <->
      forall cell, cell ∈ layout.cells -> cell.Fits self.width self.height := by
  rw [← inside_iff_fits hpitch h.points]
  simp only [Traced.after, List.mem_append]
  constructor
  · intro hall pixel hpixel
    exact hall pixel (Or.inr hpixel)
  · intro hall pixel hpixel
    cases hpixel with
    | inl hclear => exact clearPixels_inside hpitch hclear
    | inr hdrawn => exact hall pixel hdrawn

def firstCell : Cell where
  column := 0
  row := 0

theorem at_firstCell (self : Vga) (fg bg : Nat) : (self.setCursor 8 24 fg bg).At firstCell :=
  ⟨rfl, rfl⟩

end Vga

theorem Grid.layoutAll_append (switch : List Char -> Bool) (cell : Cell)
    (first second : List String) :
    layoutAll switch cell (first ++ second) =
      (layoutAll switch cell first).andThen fun cell => layoutAll switch cell second := by
  induction first generalizing cell with
  | nil => rfl
  | cons s rest ih =>
      rw [List.cons_append, layoutAll, layoutAll]
      unfold Layout.andThen
      cases hnext : (layout switch (start cell) s.toList).next with
      | none => simp [hnext]
      | some next =>
          simp only [ih next]
          unfold Layout.andThen Layout.after
          cases hrest : (layoutAll switch next rest).next with
          | none => simp [hrest]
          | some last => simp

/-!
# The console
-/

namespace Screen

def shown (texts : List String) (codes : List Nat) : List String :=
  codes.flatMap fun code => if code = enter then texts else []

section Run

variable {profile : Profile} {initrd : Initrd} {shell : Shell} {texts : List String}

theorem interpret_other (profile : Profile) (initrd : Initrd) (self : Screen) {code : Nat}
    (h : code ≠ enter) :
    exists logger, interpret profile initrd self code =
      pure { self with logger := logger } := by
  unfold interpret
  rw [if_neg h]
  exact ⟨_, rfl⟩

theorem interpret_enter (htexts : shell.display initrd = .ok texts) (vga : Vga)
    (logger : Logger) :
    exists logger', interpret profile initrd { vga, console := some shell, logger } enter =
      (vga.writeAll profile initrd texts >>= fun vga =>
        pure { vga := vga, console := some shell, logger := logger' }) := by
  simp only [interpret, if_true, Traced.pure_bind, htexts, Traced.lift_ok_bind]
  exact ⟨_, rfl⟩

theorem interpret_first (hshell : Shell.new initrd = .ok shell) (vga : Vga)
    (logger : Logger) :
    interpret profile initrd { vga, console := none, logger } enter =
      Traced.after vga.clearPixels
        (interpret profile initrd
          { vga := vga.setCursor 8 24 Color.white Color.black, console := some shell, logger }
          enter) := by
  unfold interpret initialized
  simp only [if_true, Vga.clear_eq, Traced.emits_bind, hshell, Traced.lift_ok_bind,
    Font.getWidth_eq, Font.getHeight_eq, Traced.after_bind, Traced.pure_bind]
  rfl

theorem run_follows (profile : Profile) (htexts : shell.display initrd = .ok texts)
    {vga : Vga} {cell : Cell} (hat : vga.At cell) (logger : Logger) (codes : List Nat) :
    Vga.Follows Screen.vga
      (run profile initrd { vga, console := some shell, logger } codes)
      (Grid.layoutAll (Grid.switchable initrd) cell (shown texts codes)) := by
  induction codes generalizing vga cell logger with
  | nil => exact Vga.follows_pure hat
  | cons code rest ih =>
      rw [run]
      by_cases henter : code = enter
      · subst henter
        rcases interpret_enter htexts vga logger with ⟨logger', hinterpret⟩
        have hshown : shown texts (enter :: rest) = texts ++ shown texts rest := by
          simp [shown]
        rw [hinterpret, Traced.bind_assoc, hshown, Grid.layoutAll_append]
        apply Vga.follows_bind (Vga.writeAll_follows profile initrd hat texts)
        intro vga' cell' _ hat'
        exact ih hat' logger'
      · rcases interpret_other profile initrd
          { vga, console := some shell, logger } henter with ⟨logger', hinterpret⟩
        have hshown : shown texts (code :: rest) = shown texts rest := by
          simp [shown, henter]
        rw [hinterpret, hshown]
        exact ih hat logger'

theorem run_inside_iff (hshell : Shell.new initrd = .ok shell)
    (htexts : shell.display initrd = .ok texts) {vga : Vga}
    (hpitch : 4 * vga.width <= vga.pitch) (logger : Logger) (codes : List Nat) :
    (forall pixel,
        pixel ∈ (run profile initrd { vga, console := none, logger } codes).emitted ->
        pixel.Inside vga) <->
      forall cell,
        cell ∈ (Grid.layoutAll (Grid.switchable initrd) Vga.firstCell
          (shown texts codes)).cells ->
        cell.Fits vga.width vga.height := by
  induction codes generalizing logger with
  | nil =>
      constructor
      · intro _ cell hcell
        cases hcell
      · intro _ pixel hpixel
        cases hpixel
  | cons code rest ih =>
      by_cases henter : code = enter
      · subst henter
        have hrun : run profile initrd { vga, console := none, logger } (enter :: rest) =
            Traced.after vga.clearPixels
              (run profile initrd
                { vga := vga.setCursor 8 24 Color.white Color.black, console := some shell,
                  logger } (enter :: rest)) := by
          rw [run, interpret_first hshell, Traced.after_bind]
          rfl
        have hfollows := run_follows profile htexts
          (vga.at_firstCell Color.white Color.black) logger (enter :: rest)
        rw [hrun]
        exact Vga.cleared_inside_iff hpitch hfollows
      · rcases interpret_other profile initrd
          { vga, console := none, logger } henter with ⟨logger', hinterpret⟩
        have hshown : shown texts (code :: rest) = shown texts rest := by
          simp [shown, henter]
        rw [run, hinterpret, hshown]
        exact ih logger'

end Run

/-!
# The panic screen
-/

/-- The texts of the panic screen, each written by a call of its own. -/
def panicTexts (logger : Logger) (info : String) : List String :=
  (Ansi.bold ++ Ansi.red ++ "[KERNEL PANIC]" ++ Ansi.normal ++ "\n" ++ "\n") ::
    (logger.log .fatal ("The kernel has panicked.\n" ++ info)).getLogs.map fun log =>
      log.fmt ++ "\n"

theorem panic_eq (profile : Profile) (initrd : Initrd) (vga : Vga) (logger : Logger)
    (info : String) :
    panic profile initrd vga logger info =
      Traced.after vga.clearPixels
        ((vga.setCursor 8 24 Color.white Color.black).writeAll profile initrd
          (panicTexts logger info)) := by
  unfold panic panicTexts
  rw [Vga.clear_eq, Traced.emits_bind, Vga.writeAll]

theorem panic_inside_iff (profile : Profile) (initrd : Initrd) {vga : Vga}
    (hpitch : 4 * vga.width <= vga.pitch) (logger : Logger) (info : String) :
    (forall pixel, pixel ∈ (panic profile initrd vga logger info).emitted ->
        pixel.Inside vga) <->
      forall cell,
        cell ∈ (Grid.layoutAll (Grid.switchable initrd) Vga.firstCell
          (panicTexts logger info)).cells ->
        cell.Fits vga.width vga.height := by
  have hfollows := Vga.writeAll_follows profile initrd
    (vga.at_firstCell Color.white Color.black) (panicTexts logger info)
  rw [panic_eq]
  exact Vga.cleared_inside_iff hpitch hfollows

/-- Everything that the console or the panic screen draws lies inside the framebuffer if
and only if every cell of the texts fits. -/
theorem drawn_inside_iff (profile : Profile) {initrd : Initrd} {vga : Vga} {shell : Shell}
    {motd : String} (hpitch : 4 * vga.width <= vga.pitch)
    (hshell : Shell.new initrd = .ok shell)
    (hmotd : Shell.readText initrd "initrd/etc/motd" = .ok motd) (logger : Logger) :
    (forall codes,
      (forall pixel,
          pixel ∈ (run profile initrd { vga, console := none, logger } codes).emitted ->
          pixel.Inside vga) <->
        forall cell,
          cell ∈ (Grid.layoutAll (Grid.switchable initrd) Vga.firstCell
            (shown [motd ++ "\n", shell.prompt] codes)).cells ->
          cell.Fits vga.width vga.height) ∧
    (forall info,
      (forall pixel, pixel ∈ (panic profile initrd vga logger info).emitted ->
          pixel.Inside vga) <->
        forall cell,
          cell ∈ (Grid.layoutAll (Grid.switchable initrd) Vga.firstCell
            (panicTexts logger info)).cells ->
          cell.Fits vga.width vga.height) := by
  have htexts : shell.display initrd = .ok [motd ++ "\n", shell.prompt] := by
    simp [Shell.display, hmotd]
  constructor
  · intro codes
    exact run_inside_iff hshell htexts hpitch logger codes
  · intro info
    exact panic_inside_iff profile initrd hpitch logger info

/-!
# Enough texts leave the framebuffer
-/

/-- Wherever displaying the texts starts, it ends further down and draws a cell there. -/
def MovesDown (initrd : Initrd) (texts : List String) : Prop :=
  forall cell, exists cells next,
    Grid.layoutAll (Grid.switchable initrd) cell texts = { cells, next := some next } ∧
    cell.row < next.row ∧ exists drawn, drawn ∈ cells ∧ drawn.row = next.row

theorem shown_replicate (texts : List String) (count : Nat) :
    shown texts (List.replicate (count + 1) enter) =
      shown texts (List.replicate count enter) ++ texts := by
  rw [List.replicate_succ', shown, List.flatMap_append]
  simp [shown]

theorem movesDown_row {initrd : Initrd} {texts : List String} (h : MovesDown initrd texts)
    (count : Nat) :
    exists cells next,
      Grid.layoutAll (Grid.switchable initrd) Vga.firstCell
          (shown texts (List.replicate count enter)) =
        { cells, next := some next } ∧ count <= next.row ∧
      (0 < count -> exists drawn, drawn ∈ cells ∧ count <= drawn.row) := by
  induction count with
  | zero => exact ⟨[], Vga.firstCell, rfl, Nat.zero_le _, fun hpos => absurd hpos (by lia)⟩
  | succ count ih =>
      rcases ih with ⟨cells, next, hlayout, hrow, _⟩
      rcases h next with ⟨more, last, hmore, hlast, drawn, hdrawn, hsame⟩
      refine ⟨cells ++ more, last, ?_, by lia, fun _ => ⟨drawn, ?_, by lia⟩⟩
      · rw [shown_replicate, Grid.layoutAll_append, hlayout]
        simp [Layout.andThen, Layout.after, hmore]
      · exact List.mem_append_right cells hdrawn

theorem presses_leave_screen (profile : Profile) {initrd : Initrd} {vga : Vga} {shell : Shell}
    {texts : List String} (hpitch : 4 * vga.width <= vga.pitch)
    (hshell : Shell.new initrd = .ok shell) (htexts : shell.display initrd = .ok texts)
    (hmoves : MovesDown initrd texts) (logger : Logger) {count : Nat}
    (hcount : vga.height < 16 * count + 28) (hpos : 0 < count) :
    Not (forall pixel,
      pixel ∈ (run profile initrd { vga, console := none, logger }
        (List.replicate count enter)).emitted -> pixel.Inside vga) := by
  intro hinside
  rcases movesDown_row hmoves count with ⟨cells, next, hlayout, _, hcells⟩
  rcases hcells hpos with ⟨drawn, hdrawn, hrow⟩
  have hfits := (run_inside_iff hshell htexts hpitch logger _).mp hinside drawn (by
    rw [hlayout]
    exact hdrawn)
  have hlow := hfits.2
  lia

/-!
# A screen of 480 rows
-/

def blankFont : List UInt8 :=
  [0x36, 0x04, 0x02, 16] ++ List.replicate 4096 0

def fontFile (path : String) : Initrd.File where
  header := (Console.etcFile path "").header
  data := blankFont

def fontInitrd : Initrd where
  files :=
    fontFile Font.normalPath :: fontFile Font.boldPath :: Console.etcInitrd.files

def fontShell : Shell where
  buffer := []
  group := "root"
  groupId := 0
  prompt := Shell.promptFor "root" "localhost"
  userId := 0
  username := "root"
  workingDirectory := "/root"

def fontVga : Vga where
  cursor := { x := 0, y := 0, fg := Color.white, bg := Color.black }
  font :=
    { magic := 0x0436, fontMode := 0x02, glyphSize := 16, data := List.replicate 4096 0,
      magic_eq := rfl, fontMode_eq := rfl, glyphSize_eq := rfl,
      data_length := List.length_replicate }
  height := 480
  pitch := 2560
  width := 640

def clearedVga : Vga :=
  fontVga.setCursor 8 24 Color.white Color.black

theorem fontInitrd_shell : Shell.new fontInitrd = .ok fontShell := rfl

theorem fontInitrd_motd :
    Shell.readText fontInitrd "initrd/etc/motd" = .ok "NeurOS\n" := rfl

theorem fontVga_pitch : 4 * fontVga.width <= fontVga.pitch :=
  Nat.le_refl 2560

theorem blankFont_length : blankFont.length = 4100 := by
  unfold blankFont
  rw [List.length_append, List.length_replicate]
  rfl

theorem blankFont_data : slice blankFont 4 4096 = List.replicate 4096 0 := by
  have hdata := slice_append_right [0x36, 0x04, 0x02, 16] (List.replicate 4096 (0 : UInt8)) 0 4096
  have hwhole := slice_eq_self (List.replicate 4096 (0 : UInt8))
  rw [List.length_replicate] at hwhole
  exact hdata.trans hwhole

theorem new_of_blankFont {initrd : Initrd} {path : String}
    (h : initrd.getData path = .ok blankFont) : Font.new initrd path = .ok fontVga.font := by
  have hlength : 4100 <= blankFont.length := Nat.le_of_eq blankFont_length.symm
  have hchecks : littleEndian (slice blankFont 0 2) = 0x0436 ∧
      littleEndian (slice blankFont 2 1) = 0x02 ∧
      littleEndian (slice blankFont 3 1) = 16 := ⟨rfl, rfl, rfl⟩
  simp only [Font.new, h, Outcome.ok_bind, dif_pos hlength, dif_pos hchecks]
  simp only [fontVga, hchecks.1, hchecks.2.1, hchecks.2.2, blankFont_data]

theorem switchable_of_blankFonts {initrd : Initrd}
    (hbold : initrd.getData Font.boldPath = .ok blankFont)
    (hnormal : initrd.getData Font.normalPath = .ok blankFont) :
    Grid.switchable initrd = fun _ => true := by
  funext sequence
  simp [Grid.switchable, new_of_blankFont hbold, new_of_blankFont hnormal, Except.isOk,
    Except.toBool]

theorem fontInitrd_switchable : Grid.switchable fontInitrd = fun _ => true :=
  switchable_of_blankFonts rfl rfl

theorem fontInitrd_movesDown :
    MovesDown fontInitrd ["NeurOS\n" ++ "\n", fontShell.prompt] := by
  intro cell
  rw [fontInitrd_switchable]
  refine ⟨_, _, rfl, ?_, _, List.mem_of_getLast? rfl, rfl⟩
  change cell.row < cell.row + 1 + 1
  lia

theorem drawn_inside_iff_sample :
    (forall codes,
      (forall pixel,
          pixel ∈ (run .dev fontInitrd
            { vga := fontVga, console := none, logger := Logger.new } codes).emitted ->
          pixel.Inside fontVga) <->
        forall cell,
          cell ∈ (Grid.layoutAll (Grid.switchable fontInitrd) Vga.firstCell
            (shown ["NeurOS\n" ++ "\n", fontShell.prompt] codes)).cells ->
          cell.Fits fontVga.width fontVga.height) ∧
    (forall info,
      (forall pixel, pixel ∈ (panic .dev fontInitrd fontVga Logger.new info).emitted ->
          pixel.Inside fontVga) <->
        forall cell,
          cell ∈ (Grid.layoutAll (Grid.switchable fontInitrd) Vga.firstCell
            (panicTexts Logger.new info)).cells ->
          cell.Fits fontVga.width fontVga.height) :=
  drawn_inside_iff .dev fontVga_pitch fontInitrd_shell fontInitrd_motd Logger.new

/-- On a screen of 640 by 480 pixels, twenty-nine presses draw outside the framebuffer. -/
theorem presses_leave_sample :
    fontVga.width = 640 ∧ fontVga.height = 480 ∧ 4 * fontVga.width <= fontVga.pitch ∧
      Not (forall pixel,
        pixel ∈ (run .dev fontInitrd
          { vga := fontVga, console := none, logger := Logger.new }
          (List.replicate 29 enter)).emitted -> pixel.Inside fontVga) := by
  have hcount : fontVga.height < 16 * 29 + 28 := by
    change 480 < 16 * 29 + 28
    lia
  exact ⟨rfl, rfl, fontVga_pitch, presses_leave_screen .dev fontVga_pitch fontInitrd_shell rfl
    fontInitrd_movesDown Logger.new hcount (by lia)⟩

end Screen

end NeurOS
