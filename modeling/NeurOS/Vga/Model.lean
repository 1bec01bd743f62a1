import NeurOS.Foundation.Traced
import NeurOS.Initrd.Model
import NeurOS.Shell.Model

/-!
# The framebuffer console

Text is drawn glyph by glyph, each glyph pixel by pixel.  A computation on the
framebuffer emits the pixels that it draws, also those ahead of a panic.
Coordinates are natural numbers.
-/

namespace NeurOS

open Foundation

/-!
# Fonts
-/

/-- A font that has passed the checks of its file. -/
structure Font where
  magic : Nat
  fontMode : Nat
  glyphSize : Nat
  data : List UInt8
  magic_eq : magic = 0x0436
  fontMode_eq : fontMode = 0x02
  glyphSize_eq : glyphSize = 16
  data_length : data.length = 4096

namespace Font

def new (initrd : Initrd) (path : String) : Outcome Font := do
  let psf ← initrd.getData path
  if h : 4100 <= psf.length then
    let magic := littleEndian (slice psf 0 2)
    let fontMode := littleEndian (slice psf 2 1)
    let glyphSize := littleEndian (slice psf 3 1)
    if hchecks : magic = 0x0436 ∧ fontMode = 0x02 ∧ glyphSize = 16 then
      .ok
        { magic, fontMode, glyphSize
          data := slice psf 4 4096
          magic_eq := hchecks.1
          fontMode_eq := hchecks.2.1
          glyphSize_eq := hchecks.2.2
          data_length := slice_length h }
    else
      .error .assertionFailed
  else
    .error .indexOutOfBounds

def getWidth (self : Font) : Nat :=
  self.glyphSize / 2

def getHeight (self : Font) : Nat :=
  self.glyphSize

@[simp] theorem getWidth_eq (self : Font) : self.getWidth = 8 := by
  unfold getWidth
  rw [self.glyphSize_eq]

@[simp] theorem getHeight_eq (self : Font) : self.getHeight = 16 :=
  self.glyphSize_eq

def normalPath : String := "initrd/usr/share/fonts/ter-i16n.psf"

def boldPath : String := "initrd/usr/share/fonts/ter-i16b.psf"

end Font

/-!
# Pixels and the cursor
-/

namespace Color

def black : Nat := 0x0

def blue : Nat := 0x000097E6

def green : Nat := 0x0044BD32

def orange : Nat := 0x00C23616

def purple : Nat := 0x008C7AE6

def red : Nat := 0x00E84118

def white : Nat := 0x00F5F6FA

def yellow : Nat := 0x00FBC531

end Color

structure Pixel where
  x : Nat
  y : Nat
  color : Nat
  deriving DecidableEq, Repr

def Pixel.offset (self : Pixel) (pitch : Nat) : Nat :=
  self.y * pitch + self.x * 4

structure Cursor where
  x : Nat
  y : Nat
  fg : Nat
  bg : Nat
  deriving DecidableEq, Repr

structure Vga where
  cursor : Cursor
  font : Font
  height : Nat
  pitch : Nat
  width : Nat

namespace Vga

def setCursor (self : Vga) (x y fg bg : Nat) : Vga :=
  { self with cursor := { x, y, fg, bg } }

def drawPixel (x y color : Nat) : Traced Pixel PUnit :=
  Traced.emit { x, y, color }

def clear (self : Vga) : Traced Pixel Vga := do
  (List.range self.height).forM fun y =>
    (List.range self.width).forM fun x => drawPixel x y Color.black
  pure (self.setCursor 8 24 Color.white Color.black)

/-!
# Characters
-/

def masks : List UInt8 := [128, 64, 32, 16, 8, 4, 2, 1]

def glyphsFrom (data : List UInt8) (position : Nat) : Outcome (List UInt8) :=
  if position <= data.length then
    .ok (data.drop position)
  else
    .error .indexOutOfBounds

def writeChar (profile : Profile) (self : Vga) (c : Char) : Traced Pixel PUnit := do
  let position := c.toNat * self.font.getHeight
  let glyphs ← Traced.lift (glyphsFrom self.font.data position)
  (glyphs.zipIdx.take self.font.getHeight).forM fun (glyph, cy) =>
    (masks.zipIdx.take self.font.getWidth).forM fun (mask, cx) => do
      let color := if glyph &&& mask = 0 then self.cursor.bg else self.cursor.fg
      let y ← Traced.lift (profile.sub 64 (self.cursor.y + cy) 12)
      drawPixel (self.cursor.x + cx) y color

/-!
# Strings
-/

def applySequence (initrd : Initrd) (self : Vga) (fg : Nat) (sequence : String) :
    Outcome (Vga × Nat) :=
  if sequence = Ansi.bold then do
    let font ← Font.new initrd Font.boldPath
    .ok ({ self with font := font }, fg)
  else if sequence = Ansi.blue then
    .ok (self, Color.blue)
  else if sequence = Ansi.default then
    .ok (self, Color.white)
  else if sequence = Ansi.green then
    .ok (self, Color.green)
  else if sequence = Ansi.normal then do
    let font ← Font.new initrd Font.normalPath
    .ok ({ self with font := font }, fg)
  else if sequence = Ansi.orange then
    .ok (self, Color.orange)
  else if sequence = Ansi.purple then
    .ok (self, Color.purple)
  else if sequence = Ansi.red then
    .ok (self, Color.red)
  else if sequence = Ansi.yellow then
    .ok (self, Color.yellow)
  else
    .ok (self, fg)

def afterSequence (rest : List Char) : List Char :=
  (rest.dropWhile fun c => c ≠ 'm').drop 1

theorem afterSequence_length (rest : List Char) :
    (afterSequence rest).length <= rest.length := by
  have hdrop := (List.dropWhile_sublist (l := rest) (p := fun c => c ≠ 'm')).length_le
  simp only [afterSequence, List.length_drop]
  lia

/-- The loop over the characters, with the local variables of the source. -/
def writeLoop (profile : Profile) (initrd : Initrd) (bg : Nat) (self : Vga)
    (x y fg position : Nat) : List Char -> Traced Pixel Vga
  | [] => pure self
  | character :: rest =>
      if character = '\n' then
        let x := self.font.getWidth
        let y := y + self.font.getHeight
        writeLoop profile initrd bg (self.setCursor x y fg bg) x y fg 0 rest
      else if character = '\r' then
        let x := self.font.getWidth
        writeLoop profile initrd bg (self.setCursor x y fg bg) x y fg 0 rest
      else if character = '\t' then
        let x := x + self.font.getWidth * 8
        writeLoop profile initrd bg (self.setCursor x y fg bg) x y fg position rest
      else if character = '\x1b' then do
        let sequence := String.ofList ('\x1b' :: rest.takeWhile (fun c => c ≠ 'm') ++ ['m'])
        let (self, fg) ← Traced.lift (applySequence initrd self fg sequence)
        writeLoop profile initrd bg self x y fg position (afterSequence rest)
      else do
        let self := self.setCursor (x + self.font.getWidth * position) y fg bg
        self.writeChar profile character
        writeLoop profile initrd bg self x y fg (position + 1) rest
  termination_by chars => chars.length
  decreasing_by
    all_goals
      have hlength := afterSequence_length rest
      simp only [List.length_cons]
      lia

def writeStr (profile : Profile) (initrd : Initrd) (self : Vga) (s : String) :
    Traced Pixel Vga :=
  writeLoop profile initrd self.cursor.bg self self.cursor.x self.cursor.y self.cursor.fg 0
    s.toList

def writeAll (profile : Profile) (initrd : Initrd) : Vga -> List String -> Traced Pixel Vga
  | self, [] => pure self
  | self, s :: rest => do
      let self ← self.writeStr profile initrd s
      writeAll profile initrd self rest

end Vga

/-!
# The console and the panic screen
-/

/-- The framebuffer, and the shell once the console has been used. -/
structure Screen where
  vga : Vga
  console : Option Shell
  logger : Logger

namespace Screen

def initialized (initrd : Initrd) (vga : Vga) : Traced Pixel (Vga × Shell) := do
  let x := vga.font.getWidth
  let y := vga.font.getHeight + x
  let vga ← vga.clear
  let vga := vga.setCursor x y Color.white Color.black
  let shell ← Traced.lift (Shell.new initrd)
  pure (vga, shell)

def enter : Nat := 0x1C

def interpret (profile : Profile) (initrd : Initrd) (self : Screen) (scanCode : Nat) :
    Traced Pixel Screen := do
  let logger := self.logger.log .trace
    s!"Received scan code (0x{Elf.hex scanCode}) from keyboard."
  if scanCode = enter then
    let (vga, shell) ←
      match self.console with
      | some shell => pure (self.vga, shell)
      | none => initialized initrd self.vga
    let texts ← Traced.lift (shell.display initrd)
    let vga ← vga.writeAll profile initrd texts
    pure { vga := vga, console := some shell, logger := logger }
  else
    pure { self with logger := logger }

def run (profile : Profile) (initrd : Initrd) : Screen -> List Nat -> Traced Pixel Screen
  | self, [] => pure self
  | self, scanCode :: rest => do
      let self ← self.interpret profile initrd scanCode
      run profile initrd self rest

def panic (profile : Profile) (initrd : Initrd) (vga : Vga) (logger : Logger)
    (info : String) : Traced Pixel Vga := do
  let vga ← vga.clear
  let vga ← vga.writeStr profile initrd
    (Ansi.bold ++ Ansi.red ++ "[KERNEL PANIC]" ++ Ansi.normal ++ "\n" ++ "\n")
  let logger := logger.log .fatal ("The kernel has panicked.\n" ++ info)
  vga.writeAll profile initrd (logger.getLogs.map fun log => log.fmt ++ "\n")

end Screen

end NeurOS
