import NeurOS.Vga.Bounds
import NeurOS.Vga.Painting

/-!
# Clearing the framebuffer

Behind a clearing nothing on the screen depends on what was drawn before, and a text
that starts by choosing a font does not depend on the font in use.  So the panic
screen is a function of the log.
-/

namespace NeurOS

open Foundation

namespace Vga

variable {self : Vga} {x y i : Nat}

def Holds (self : Vga) (x y i : Nat) : Prop :=
  x < self.width ∧ y < self.height ∧ y * self.pitch + x * 4 <= i ∧
    i < y * self.pitch + x * 4 + 4

theorem clearPixels_covers (h : self.Holds x y i) :
    exists store, store ∈ self.clearPixels.map (Pixel.store self.pitch) ∧ store.Covers i := by
  rcases h with ⟨hx, hy, hstart, hend⟩
  let pixel : Pixel := { x := x, y := y, color := Color.black }
  have hmem : pixel ∈ self.clearPixels :=
    List.mem_flatMap.mpr ⟨y, List.mem_range.mpr hy,
      List.mem_map.mpr ⟨x, List.mem_range.mpr hx, rfl⟩⟩
  refine ⟨pixel.store self.pitch, List.mem_map_of_mem hmem, hstart, ?_⟩
  rw [Pixel.store_stop]
  exact hend

/-- Whatever is drawn behind a clearing, the bytes of the screen do not depend on what the
framebuffer held ahead of it. -/
theorem clear_forgets (first second : Ram) (pixels : List Pixel) (h : self.Holds x y i) :
    paint self.pitch first (self.clearPixels ++ pixels) i =
      paint self.pitch second (self.clearPixels ++ pixels) i := by
  unfold paint
  apply Ram.storeAll_forgets
  right
  rcases clearPixels_covers h with ⟨store, hmem, hcovers⟩
  rw [List.map_append]
  exact ⟨store, List.mem_append_left _ hmem, hcovers⟩

theorem pixelAt_forgets (first second : Ram) (pixels : List Pixel) (hx : x < self.width)
    (hy : y < self.height) :
    pixelAt self.pitch (paint self.pitch first (self.clearPixels ++ pixels)) x y =
      pixelAt self.pitch (paint self.pitch second (self.clearPixels ++ pixels)) x y := by
  unfold pixelAt
  apply congrArg littleEndian
  apply Ram.read_congr
  intro i hstart hend
  exact clear_forgets first second pixels ⟨hx, hy, hstart, hend⟩

/-!
# Choosing a font
-/

def setFont (self : Vga) (font : Font) : Vga :=
  { self with font := font }

theorem applySequence_bold (initrd : Initrd) (self : Vga) (font : Font) (fg : Nat) :
    applySequence initrd (self.setFont font) fg Ansi.bold =
      applySequence initrd self fg Ansi.bold := by
  unfold applySequence
  rw [if_pos rfl, if_pos rfl]
  rfl

theorem writeStr_bold (profile : Profile) (initrd : Initrd) (self : Vga) (font : Font)
    (s : String) :
    (self.setFont font).writeStr profile initrd (Ansi.bold ++ s) =
      self.writeStr profile initrd (Ansi.bold ++ s) := by
  have hbold : (Ansi.bold ++ s).toList = '\x1b' :: '[' :: '1' :: 'm' :: s.toList := by
    rw [String.toList_append]
    rfl
  have hsequence : String.ofList ('\x1b' ::
      ('[' :: '1' :: 'm' :: s.toList).takeWhile (fun c => c ≠ 'm') ++ ['m']) = Ansi.bold := rfl
  unfold writeStr
  rw [hbold, writeLoop_escape, writeLoop_escape, hsequence, applySequence_bold]
  rfl

end Vga

namespace Screen

/-- The panic screen does not depend on the cursor, the colours and the font that were in use, nor
on what the framebuffer held: of two framebuffers of the same size, the same pixels are drawn for
the same log, and each pixel of the screen then has the same colour. -/
theorem panic_forgets (profile : Profile) (initrd : Initrd) {vga other : Vga}
    (hheight : vga.height = other.height) (hpitch : vga.pitch = other.pitch)
    (hwidth : vga.width = other.width) (logger : Logger) (info : String) :
    panic profile initrd vga logger info = panic profile initrd other logger info ∧
    forall (first second : Ram) x y, x < vga.width -> y < vga.height ->
      pixelAt vga.pitch
          (paint vga.pitch first (panic profile initrd vga logger info).emitted) x y =
        pixelAt other.pitch
          (paint other.pitch second (panic profile initrd other logger info).emitted) x y := by
  have hcleared : vga.setCursor 8 24 Color.white Color.black =
      (other.setCursor 8 24 Color.white Color.black).setFont vga.font := by
    cases vga
    cases other
    cases hheight
    cases hpitch
    cases hwidth
    rfl
  have hpixels : vga.clearPixels = other.clearPixels := by
    unfold Vga.clearPixels
    rw [hheight, hwidth]
  have hpanic : panic profile initrd vga logger info = panic profile initrd other logger info := by
    rw [panic_eq, panic_eq, hpixels, hcleared]
    unfold panicTexts Vga.writeAll
    rw [String.append_assoc, String.append_assoc, String.append_assoc, String.append_assoc,
      Vga.writeStr_bold]
  refine ⟨hpanic, ?_⟩
  intro first second x y hx hy
  rw [hpitch, hpanic, panic_eq]
  exact Vga.pixelAt_forgets first second _ (hwidth ▸ hx) (hheight ▸ hy)

theorem panic_forgets_sample :
    panic .dev fontInitrd fontVga Logger.new "" =
      panic .dev fontInitrd (fontVga.setCursor 96 320 Color.red Color.blue) Logger.new "" ∧
    pixelAt fontVga.pitch (paint fontVga.pitch (fun _ => 0)
        (panic .dev fontInitrd fontVga Logger.new "").emitted) 8 24 =
      pixelAt fontVga.pitch (paint fontVga.pitch (fun _ => 255)
        (panic .dev fontInitrd (fontVga.setCursor 96 320 Color.red Color.blue)
          Logger.new "").emitted) 8 24 := by
  have hheight : fontVga.height =
      (fontVga.setCursor 96 320 Color.red Color.blue).height := rfl
  have hx : 8 < fontVga.width := show 8 < 640 by lia
  have hy : 24 < fontVga.height := show 24 < 480 by lia
  have hforgets := panic_forgets .dev fontInitrd hheight rfl rfl Logger.new ""
  exact ⟨hforgets.1, hforgets.2 (fun _ => 0) (fun _ => 255) 8 24 hx hy⟩

end Screen

end NeurOS
