import NeurOS.Vga.Letters
import NeurOS.Vga.Opening

/-!
# The opening screen, point by point

What is drawn later covers what was drawn earlier: the captions lie over the images, and
the images over each other in their order.  Where nothing is drawn, the framebuffer
shows what it held.
-/

namespace NeurOS

open Foundation

def imageColor (image : Image) (left top x y : Nat) : Option Nat :=
  if left <= x ∧ x < left + image.header.width ∧ top <= y ∧ y < top + image.header.height then
    some (image.pixel (x - left) (y - top)).rgb
  else
    none

def imagePixels (image : Image) (left top : Nat) : List Pixel :=
  rectangle left top image.header.width image.header.height fun ix iy => (image.pixel ix iy).rgb

theorem colorAt_imagePixels (image : Image) (left top x y : Nat) :
    colorAt (imagePixels image left top) x y = imageColor image left top x y :=
  colorAt_rectangle ..

theorem imagePixels_inside {image : Image} {left width : Nat}
    (h : image.header.width = 0 ∨ image.header.height = 0 ∨ left + image.header.width <= width)
    (top : Nat) :
    forall pixel, pixel ∈ imagePixels image left top ->
      pixel.x < width ∧ pixel.color < 2 ^ 32 := by
  intro pixel hpixel
  rcases mem_rectangle_iff.mp hpixel with ⟨ix, iy, hix, hiy, rfl⟩
  refine ⟨?_, (image.pixel ix iy).rgb_lt⟩
  show left + ix < width
  lia

namespace Intro

/-!
# Captions
-/

def captionRow (vga : Vga) (fg : Nat) (caption : String) : List Letter :=
  letters fg vga.font caption.toList

def copyrightLeft (build : Build) (vga : Vga) : Nat :=
  vga.width - ((copyrightText build).toList.length * 8 + 8)

/-- The color that the captions have at a point, the last one on top. -/
def captionColor (build : Build) (vga : Vga) (x y : Nat) : Option Nat :=
  let instruction := captionRow vga Color.white instructionText
  let copyright := captionRow vga Color.blue (copyrightText build)
  let version := captionRow vga Color.red (versionText build)
  (rowColor (vga.width / 2 - 96) (vga.height - vga.height / 4) instruction x y).or
    ((rowColor (copyrightLeft build vga) (vga.height - 8) copyright x y).or
      (rowColor 8 (vga.height - 8) version x y))

def captionPixels (build : Build) (vga : Vga) : List Pixel :=
  rowPixels 8 (vga.height - 8) (captionRow vga Color.red (versionText build)) ++
    (rowPixels (copyrightLeft build vga) (vga.height - 8)
        (captionRow vga Color.blue (copyrightText build)) ++
      rowPixels (vga.width / 2 - 96) (vga.height - vga.height / 4)
        (captionRow vga Color.white instructionText))

theorem writeStr_caption (profile : Profile) (initrd : Initrd) {caption : String}
    (h : Vga.Prints caption.toList) {y : Nat} (hy : 12 <= y) (vga : Vga) (x fg : Nat) :
    exists cursor,
      (vga.setCursor x y fg Color.black).writeStr profile initrd caption =
        Traced.emits (rowPixels x y (captionRow vga fg caption))
          { vga with cursor := cursor } := by
  have hplain : forall c, c ∈ caption.toList -> Letter.Plain c := fun c hc =>
    Letter.plain_of_printable (h c hc).1 (Nat.le_of_lt_succ (h c hc).2)
  rcases Vga.writeLoop_letters profile initrd hplain hy (vga.setCursor x y fg Color.black) x fg 0
    [] with ⟨cursor, hloop⟩
  refine ⟨cursor, ?_⟩
  rw [List.append_nil, Vga.writeLoop] at hloop
  exact hloop.trans (congrArg (Traced.emits · _) (List.append_nil _))

section Captions

variable {build : Build} {vga : Vga}

theorem captions_emit (profile : Profile) (initrd : Initrd) (hbuild : Labelled build)
    (hwidth : 640 <= vga.width) (hheight : 480 <= vga.height) :
    exists after,
      captions profile initrd build vga = Traced.emits (captionPixels build vga) after := by
  have hinstruction : Vga.Prints instructionText.toList := by
    simp [Vga.Prints, instructionText]
  have hlength : instructionText.toList.length = 24 := by simp [instructionText]
  have hshort := hbuild.copyrightShort
  have hbottom : 12 <= vga.height - 8 := by lia
  rcases writeStr_caption profile initrd hbuild.version hbottom vga 8 Color.red with
    ⟨first, hfirst⟩
  rcases writeStr_caption profile initrd hbuild.copyright hbottom { vga with cursor := first }
    (copyrightLeft build vga) Color.blue with ⟨second, hsecond⟩
  rcases writeStr_caption profile initrd hinstruction
    (show 12 <= vga.height - vga.height / 4 by lia) { vga with cursor := second }
    (vga.width / 2 - 96) Color.white with ⟨third, hthird⟩
  have hleft : vga.width - ((copyrightText build).toList.length * 8 + 8) =
      copyrightLeft build vga := rfl
  refine ⟨{ vga with cursor := third }, ?_⟩
  unfold captions
  rw [Font.getWidth_eq, utf8ByteSize_of_prints hbuild.copyright,
    utf8ByteSize_of_prints hinstruction, hlength, profile.sub_of_le 64 (by lia),
    Traced.lift_ok_bind, hfirst, Traced.emits_bind, profile.sub_of_le 64 (by lia),
    Traced.lift_ok_bind, hleft, hsecond, Traced.emits_bind, profile.sub_of_le 64 (by lia),
    Traced.lift_ok_bind, profile.sub_of_le 64 (by lia), Traced.lift_ok_bind]
  exact congrArg (fun last => Traced.after _ (Traced.after _ last)) hthird

theorem colorAt_captionPixels (hheight : 480 <= vga.height) (x y : Nat) :
    colorAt (captionPixels build vga) x y = captionColor build vga x y := by
  have hbottom : 12 <= vga.height - 8 := by lia
  unfold captionPixels
  rw [colorAt_append, colorAt_append, colorAt_rowPixels hbottom, colorAt_rowPixels hbottom,
    colorAt_rowPixels (show 12 <= vga.height - vga.height / 4 by lia), Option.or_assoc]
  rfl

theorem captionPixels_inside (hbuild : Labelled build) (hwidth : 640 <= vga.width) :
    forall pixel, pixel ∈ captionPixels build vga ->
      pixel.x < vga.width ∧ pixel.color < 2 ^ 32 := by
  have hversionShort := hbuild.versionShort
  have hcopyrightShort := hbuild.copyrightShort
  have hcolored {fg : Nat} (hfg : fg < 2 ^ 32) (caption : String) :
      forall letter, letter ∈ captionRow vga fg caption -> letter.Colored := by
    intro letter hletter
    rcases List.mem_map.mp hletter with ⟨_, _, rfl⟩
    exact hfg
  have hlength (fg : Nat) (caption : String) :
      (captionRow vga fg caption).length = caption.toList.length := List.length_map _
  have hinstruction : instructionText.toList.length = 24 := by simp [instructionText]
  unfold captionPixels
  rw [List.forall_mem_append, List.forall_mem_append]
  refine ⟨rowPixels_inside (hcolored (by simp [Color.red]) _) ?_,
    rowPixels_inside (hcolored (by simp [Color.blue]) _) ?_,
    rowPixels_inside (hcolored (by simp [Color.white]) _) ?_⟩
  · rw [hlength]
    lia
  · rw [hlength, copyrightLeft]
    lia
  · rw [hlength, hinstruction]
    lia

end Captions

/-!
# The whole screen
-/

theorem drawAt_emits {profile : Profile} {initrd : Initrd} {path : String} {image : Image}
    (h : Image.new profile initrd path = .ok image) {centre : Nat}
    (hleft : image.header.width / 2 <= centre) (y : Nat) :
    drawAt profile initrd path centre y =
      Traced.emits (imagePixels image (centre - image.header.width / 2) y) ⟨⟩ := by
  have himage := Image.new_rectangular h
  unfold drawAt
  rw [h, Traced.lift_ok_bind, profile.sub_of_le 64 hleft, Traced.lift_ok_bind,
    Image.draw_eq (himage.setPosition _ _)]
  rfl

def openingPixels (build : Build) (vga : Vga) (logo neuro evil : Image) : List Pixel :=
  imagePixels logo (vga.width / 2 - logo.header.width / 2) (vga.height / 8) ++
    (imagePixels neuro (vga.width / 3 - neuro.header.width / 2) (vga.height / 2) ++
      (imagePixels evil (vga.width - vga.width / 3 - evil.header.width / 2) (vga.height / 2) ++
        captionPixels build vga))

/-- The colors of the opening screen: the captions over the images, and a later image over an
earlier one. -/
def openingColor (build : Build) (vga : Vga) (logo neuro evil : Image) (x y : Nat) : Option Nat :=
  let left := fun (centre : Nat) (image : Image) => centre - image.header.width / 2
  (captionColor build vga x y).or
    ((imageColor evil (left (vga.width - vga.width / 3) evil) (vga.height / 2) x y).or
      ((imageColor neuro (left (vga.width / 3) neuro) (vga.height / 2) x y).or
        (imageColor logo (left (vga.width / 2) logo) (vga.height / 8) x y)))

section Opening

variable {initrd : Initrd} {build : Build} {vga : Vga} {logo neuro evil : Image}

theorem initializeScreen_emits (profile : Profile) (hbuild : Labelled build)
    (hwidth : 640 <= vga.width) (hheight : 480 <= vga.height)
    (himages : Loads profile initrd logo neuro evil) (hlogo : logo.header.width <= vga.width)
    (hevil : evil.header.width <= vga.width)
    (hfits : Fits vga.width vga.height logo.header neuro.header evil.header) :
    exists after, initializeScreen profile initrd build vga =
      Traced.emits (openingPixels build vga logo neuro evil) after := by
  rcases captions_emit profile initrd hbuild hwidth hheight with ⟨after, hcaptions⟩
  refine ⟨after, ?_⟩
  rw [initializeScreen_eq, drawAt_emits himages.logo (Nat.div_le_div_right hlogo),
    Traced.emits_bind, drawAt_emits himages.neuro hfits.neuroLeft, Traced.emits_bind,
    profile.sub_of_le 64 (Nat.div_le_self _ _), Traced.lift_ok_bind,
    drawAt_emits himages.evil (by lia), Traced.emits_bind, hcaptions, Traced.after_emits,
    Traced.after_emits, Traced.after_emits]
  rfl

theorem openingPixels_inside (hbuild : Labelled build) (hwidth : 640 <= vga.width)
    (hlogo : logo.header.width <= vga.width)
    (hfits : Fits vga.width vga.height logo.header neuro.header evil.header)
    {pixel : Pixel} (h : pixel ∈ openingPixels build vga logo neuro evil) :
    pixel.x < vga.width ∧ pixel.color < 2 ^ 32 := by
  have hneuroLeft := hfits.neuroLeft
  have hevilRight := hfits.evilRight
  revert pixel
  unfold openingPixels
  rw [List.forall_mem_append, List.forall_mem_append, List.forall_mem_append]
  exact ⟨imagePixels_inside (by lia) _, imagePixels_inside (by lia) _,
    imagePixels_inside (by lia) _, captionPixels_inside hbuild hwidth⟩

theorem colorAt_openingPixels (hheight : 480 <= vga.height) (x y : Nat) :
    colorAt (openingPixels build vga logo neuro evil) x y =
      openingColor build vga logo neuro evil x y := by
  unfold openingPixels
  rw [colorAt_append, colorAt_append, colorAt_append, colorAt_captionPixels hheight,
    colorAt_imagePixels, colorAt_imagePixels, colorAt_imagePixels, Option.or_assoc,
    Option.or_assoc]
  rfl

end Opening

/-- Where the three images fit, the opening screen is drawn to its end, and every point of the
display shows what was drawn last at it, or what it showed before. -/
theorem opening_picture (profile : Profile) {initrd : Initrd} {build : Build}
    (hbuild : Labelled build) {vga : Vga} (hpitch : 4 * vga.width <= vga.pitch)
    (hwidth : 640 <= vga.width) (hheight : 480 <= vga.height) {logo neuro evil : Image}
    (himages : Loads profile initrd logo neuro evil) (hlogo : logo.header.width <= vga.width)
    (hevil : evil.header.width <= vga.width)
    (hfits : Fits vga.width vga.height logo.header neuro.header evil.header) :
    (exists after, (initializeScreen profile initrd build vga).result = .ok after) ∧
      forall (ram : Ram) x y, x < vga.width ->
        pixelAt vga.pitch
            (paint vga.pitch ram (initializeScreen profile initrd build vga).emitted) x y =
          (openingColor build vga logo neuro evil x y).getD (pixelAt vga.pitch ram x y) := by
  rcases initializeScreen_emits profile hbuild hwidth hheight himages hlogo hevil hfits with
    ⟨after, hdrawn⟩
  rw [hdrawn]
  refine ⟨⟨after, rfl⟩, ?_⟩
  intro ram x y hx
  have hinside := fun pixel => @openingPixels_inside build vga logo neuro evil hbuild hwidth hlogo
    hfits pixel
  have hshown := pixelAt_paint (y := y) hpitch hinside ram hx
  rw [colorAt_openingPixels hheight] at hshown
  exact hshown

theorem opening_picture_sample :
    let initrd := imageInitrd Image.point Image.point Image.point
    let image := black Image.point
    let screen := initializeScreen .dev initrd (buildOf "0") Screen.fontVga
    (exists after, screen.result = .ok after) ∧
      forall (ram : Ram) x y, x < 640 ->
        pixelAt 2560 (paint 2560 ram screen.emitted) x y =
          (openingColor (buildOf "0") Screen.fontVga image image image x y).getD
            (pixelAt 2560 ram x y) := by
  intro initrd image screen
  have hfits : Fits 640 480 image.header image.header image.header := by
    constructor <;> simp [image, black, Image.painted, Image.point]
  exact opening_picture .dev (labelled_buildOf shortName_zero) Screen.fontVga_pitch
    (Nat.le_refl 640) (Nat.le_refl 480) points_load (show 1 <= 640 by simp)
    (show 1 <= 640 by simp) hfits

end Intro

end NeurOS
