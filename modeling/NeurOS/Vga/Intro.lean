import NeurOS.Image.Model
import NeurOS.Vga.Model

/-!
# The opening screen

Three images of the ramdisk and three lines of text, placed by the size of the
framebuffer.  A place that would lie left of the framebuffer or above it overflows.
-/

namespace NeurOS

open Foundation

namespace Image

def setPosition (self : Image) (x y : Nat) : Image :=
  { self with header := { self.header with x := x, y := y } }

def Pixel.color (self : Pixel) : Nat :=
  self.getRed.toNat * 65536 + self.getGreen.toNat * 256 + self.getBlue.toNat

def draw (self : Image) : Traced NeurOS.Pixel PUnit :=
  (self.data.zipIdx.take self.header.height).forM fun (row, iy) =>
    (row.zipIdx.take self.header.width).forM fun (column, ix) =>
      Vga.drawPixel (self.header.x + ix) (self.header.y + iy) column.color

end Image

structure Build where
  version : String
  commit : String
  authors : String

namespace Intro

def drawAt (profile : Profile) (initrd : Initrd) (path : String) (centre y : Nat) :
    Traced Pixel PUnit := do
  let image ← Traced.lift (Image.new profile initrd path)
  let x ← Traced.lift (profile.sub 64 centre (image.header.width / 2))
  (image.setPosition x y).draw

def initializeScreen (profile : Profile) (initrd : Initrd) (build : Build) (vga : Vga) :
    Traced Pixel Vga := do
  let width := vga.width
  let height := vga.height
  let fontWidth := vga.font.getWidth
  drawAt profile initrd "initrd/usr/share/images/logo.ppm" (width / 2) (height / 8)
  drawAt profile initrd "initrd/usr/share/images/neuro.ppm" (width / 3) (height / 2)
  let centre ← Traced.lift (profile.sub 64 width (width / 3))
  drawAt profile initrd "initrd/usr/share/images/evil.ppm" centre (height / 2)
  let y ← Traced.lift (profile.sub 64 height fontWidth)
  let vga := vga.setCursor fontWidth y Color.red Color.black
  let vga ← vga.writeStr profile initrd s!"Version {build.version} ({build.commit})"
  let copyright := "Copyright (C) 2024 " ++ build.authors
  let x ← Traced.lift
    (profile.sub 64 width (copyright.utf8ByteSize * fontWidth + fontWidth))
  let vga := vga.setCursor x y Color.blue Color.black
  let vga ← vga.writeStr profile initrd copyright
  let instruction := "Press ENTER to continue."
  let x ← Traced.lift (profile.sub 64 (width / 2) (instruction.utf8ByteSize * fontWidth / 2))
  let y ← Traced.lift (profile.sub 64 height (height / 4))
  let vga := vga.setCursor x y Color.white Color.black
  vga.writeStr profile initrd instruction

end Intro

end NeurOS
