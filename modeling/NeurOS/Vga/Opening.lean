import NeurOS.Vga.Painting

/-!
# The opening screen on a display

The places of the three images and of the three texts of the opening screen.  The
texts fit every display of the smallest size; an image fits exactly when its place
leaves room for it to the left, to the right and below.
-/

namespace NeurOS

open Foundation

def Pixel.On (width height : Nat) (pixel : Pixel) : Prop :=
  pixel.x < width ∧ pixel.y < height

theorem rectangle_on_iff {x y width height w h : Nat} {color : Nat -> Nat -> Nat} :
    (forall pixel, pixel ∈ rectangle x y w h color -> pixel.On width height) <->
      w = 0 ∨ h = 0 ∨ x + w <= width ∧ y + h <= height := by
  constructor
  · intro hon
    by_cases hempty : w = 0 ∨ h = 0
    · rcases hempty with hw | hh
      · exact Or.inl hw
      · exact Or.inr (Or.inl hh)
    · have hlast : ({ x := x + (w - 1), y := y + (h - 1), color := color (w - 1) (h - 1) } :
          Pixel).On width height := by
        apply hon
        exact mem_rectangle_iff.mpr ⟨w - 1, h - 1, by lia, by lia, rfl⟩
      rcases hlast with ⟨hx, hy⟩
      change x + (w - 1) < width at hx
      change y + (h - 1) < height at hy
      right
      right
      lia
  · intro hfits pixel hpixel
    rcases mem_rectangle_iff.mp hpixel with ⟨ix, iy, hix, hiy, rfl⟩
    show x + ix < width ∧ y + iy < height
    lia

/-!
# Printed texts
-/

namespace Vga

def Prints (chars : List Char) : Prop :=
  forall c, c ∈ chars -> 32 <= c.toNat ∧ c.toNat < 127

theorem not_control {c control : Char} (h : 32 <= c.toNat) (hcontrol : control.toNat < 32) :
    c ≠ control := by
  rintro rfl
  lia

theorem writeLoop_prints (profile : Profile) (initrd : Initrd) (bg : Nat) {chars : List Char}
    (h : Prints chars) : forall (self : Vga) (x y fg position : Nat), 12 <= y ->
      exists pixels final,
        writeLoop profile initrd bg self x y fg position chars = Traced.emits pixels final ∧
        forall pixel, pixel ∈ pixels -> pixel.On (x + 8 * (position + chars.length)) (y + 4) := by
  induction chars with
  | nil =>
      intro self x y fg position hy
      rw [writeLoop]
      exact ⟨[], self, rfl, by simp⟩
  | cons c rest ih =>
      intro self x y fg position hy
      rcases h c List.mem_cons_self with ⟨hlow, hhigh⟩
      have hrest : Prints rest := fun d hd => h d (List.mem_cons_of_mem c hd)
      let target := self.setCursor (x + 8 * position) y fg bg
      have hwrite : target.writeChar profile c = _ := writeChar_rectangle profile hy (by lia)
      rcases ih hrest target x y fg (position + 1) hy with ⟨pixels, final, hloop, hon⟩
      rw [writeLoop_glyph _ _ _ _ _ _ _ _ _ (not_control hlow (by simp))
        (not_control hlow (by simp)) (not_control hlow (by simp)) (not_control hlow (by simp)),
        hwrite, Traced.emits_bind, hloop, Traced.after_emits]
      refine ⟨_, final, rfl, ?_⟩
      rw [List.forall_mem_append]
      constructor
      · rw [rectangle_on_iff]
        right
        right
        rw [List.length_cons]
        change x + 8 * position + 8 <= _ ∧ y - 12 + 16 <= _
        lia
      · intro pixel hpixel
        have hlast := hon pixel hpixel
        have hcount : position + 1 + rest.length = position + (c :: rest).length := by
          rw [List.length_cons]
          lia
        rw [hcount] at hlast
        exact hlast

theorem writeStr_completes (profile : Profile) (initrd : Initrd) {self : Vga} {s : String}
    {width height : Nat} (h : Prints s.toList) (hy : 12 <= self.cursor.y)
    (hright : self.cursor.x + 8 * s.toList.length <= width)
    (hbottom : self.cursor.y + 4 <= height) :
    (self.writeStr profile initrd s).Completes (Pixel.On width height) := by
  rcases writeLoop_prints profile initrd self.cursor.bg h self self.cursor.x self.cursor.y
    self.cursor.fg 0 hy with ⟨pixels, final, hloop, hon⟩
  unfold writeStr
  rw [hloop, Traced.completes_emits_iff]
  intro pixel hpixel
  rcases hon pixel hpixel with ⟨hx, hrow⟩
  rw [Nat.zero_add] at hx
  exact ⟨Nat.lt_of_lt_of_le hx hright, Nat.lt_of_lt_of_le hrow hbottom⟩

end Vga

/-!
# Images
-/

namespace Intro

section DrawAt

variable {initrd : Initrd} {path : String} {image : Image} {centre y width height : Nat}

theorem drawAt_completes_iff {profile : Profile} (h : Image.new profile initrd path = .ok image)
    (hleft : image.header.width / 2 <= centre) :
    (drawAt profile initrd path centre y).Completes (Pixel.On width height) <->
      image.header.width = 0 ∨ image.header.height = 0 ∨
        centre - image.header.width / 2 + image.header.width <= width ∧
          y + image.header.height <= height := by
  have himage := Image.new_rectangular h
  unfold drawAt
  rw [h, Traced.lift_ok_bind, profile.sub_of_le 64 hleft, Traced.lift_ok_bind,
    Image.draw_eq (himage.setPosition _ _), Traced.completes_emits_iff]
  exact rectangle_on_iff

theorem left_of_drawAt_completes (h : Image.new .dev initrd path = .ok image)
    (hcompletes : (drawAt .dev initrd path centre y).Completes (Pixel.On width height)) :
    image.header.width / 2 <= centre := by
  unfold drawAt at hcompletes
  rw [h, Traced.lift_ok_bind, Traced.completes_lift_bind_iff] at hcompletes
  rcases hcompletes with ⟨x, hx, _⟩
  exact (Profile.sub_dev_eq_ok_iff.mp hx).1

end DrawAt

/-!
# Texts
-/

def versionText (build : Build) : String :=
  "Version " ++ build.version ++ " (" ++ build.commit ++ ")"

def copyrightText (build : Build) : String :=
  "Copyright (C) 2024 " ++ build.authors

def instructionText : String := "Press ENTER to continue."

/-- The texts of the opening screen, which it draws behind the images. -/
def captions (profile : Profile) (initrd : Initrd) (build : Build) (vga : Vga) :
    Traced Pixel Vga := do
  let y ← Traced.lift (profile.sub 64 vga.height vga.font.getWidth)
  let written ← (vga.setCursor vga.font.getWidth y Color.red Color.black).writeStr profile initrd
    (versionText build)
  let x ← Traced.lift
    (profile.sub 64 vga.width
      ((copyrightText build).utf8ByteSize * vga.font.getWidth + vga.font.getWidth))
  let written ← (written.setCursor x y Color.blue Color.black).writeStr profile initrd
    (copyrightText build)
  let x ← Traced.lift
    (profile.sub 64 (vga.width / 2) (instructionText.utf8ByteSize * vga.font.getWidth / 2))
  let y ← Traced.lift (profile.sub 64 vga.height (vga.height / 4))
  (written.setCursor x y Color.white Color.black).writeStr profile initrd instructionText

theorem initializeScreen_eq (profile : Profile) (initrd : Initrd) (build : Build) (vga : Vga) :
    initializeScreen profile initrd build vga = (do
      drawAt profile initrd "initrd/usr/share/images/logo.ppm" (vga.width / 2) (vga.height / 8)
      drawAt profile initrd "initrd/usr/share/images/neuro.ppm" (vga.width / 3) (vga.height / 2)
      let centre ← Traced.lift (profile.sub 64 vga.width (vga.width / 3))
      drawAt profile initrd "initrd/usr/share/images/evil.ppm" centre (vga.height / 2)
      captions profile initrd build vga) := rfl

/-- The texts that the build puts in are printed, and have room on the smallest display. -/
structure Labelled (build : Build) : Prop where
  version : Vga.Prints (versionText build).toList
  versionShort : (versionText build).toList.length <= 79
  copyright : Vga.Prints (copyrightText build).toList
  copyrightShort : (copyrightText build).toList.length <= 79

theorem utf8ByteSize_of_prints {s : String} (h : Vga.Prints s.toList) :
    s.utf8ByteSize = s.toList.length := by
  have hascii : forall c, c ∈ s.toList -> c.utf8Size = 1 := by
    intro c hc
    have hlow : c.val.toNat <= 127 := Nat.le_of_lt (h c hc).2
    exact Char.utf8Size_eq_one_iff.mpr (UInt32.le_iff_toNat_le.mpr hlow)
  have hlength := Text.bytesOf_length_of_ascii hascii
  rw [String.ofList_toList] at hlength
  rw [← hlength, Text.bytesOf]
  simp

theorem captions_complete (profile : Profile) (initrd : Initrd) {build : Build}
    (hbuild : Labelled build) {vga : Vga} (hwidth : 640 <= vga.width)
    (hheight : 480 <= vga.height) :
    (captions profile initrd build vga).Completes (Pixel.On vga.width vga.height) := by
  have hinstruction : Vga.Prints instructionText.toList := by
    simp [Vga.Prints, instructionText]
  have hlength : instructionText.toList.length = 24 := by simp [instructionText]
  have hversionShort := hbuild.versionShort
  have hcopyrightShort := hbuild.copyrightShort
  unfold captions
  rw [Font.getWidth_eq, utf8ByteSize_of_prints hbuild.copyright,
    utf8ByteSize_of_prints hinstruction, hlength, profile.sub_of_le 64 (by lia),
    Traced.lift_ok_bind, Traced.completes_bind_iff]
  constructor
  · apply Vga.writeStr_completes profile initrd hbuild.version
    · show 12 <= vga.height - 8
      lia
    · show 8 + 8 * _ <= vga.width
      lia
    · show vga.height - 8 + 4 <= vga.height
      lia
  intro written _
  rw [profile.sub_of_le 64 (by lia), Traced.lift_ok_bind, Traced.completes_bind_iff]
  constructor
  · apply Vga.writeStr_completes profile initrd hbuild.copyright
    · show 12 <= vga.height - 8
      lia
    · show vga.width - _ + 8 * _ <= vga.width
      lia
    · show vga.height - 8 + 4 <= vga.height
      lia
  intro written' _
  rw [profile.sub_of_le 64 (by lia), Traced.lift_ok_bind, profile.sub_of_le 64 (by lia),
    Traced.lift_ok_bind]
  apply Vga.writeStr_completes profile initrd hinstruction
  · show 12 <= vga.height - vga.height / 4
    lia
  · show vga.width / 2 - _ + 8 * _ <= vga.width
    lia
  · show vga.height - vga.height / 4 + 4 <= vga.height
    lia

/-!
# The whole screen
-/

/-- The place of every image leaves room for it on a display of the given size. -/
structure Fits (width height : Nat) (logo neuro evil : Image.Header) : Prop where
  logoBelow : logo.width = 0 ∨ logo.height = 0 ∨ height / 8 + logo.height <= height
  neuroLeft : neuro.width / 2 <= width / 3
  neuroBelow : neuro.width = 0 ∨ neuro.height = 0 ∨ height / 2 + neuro.height <= height
  evilRight : evil.width = 0 ∨ evil.height = 0 ∨ (evil.width + 1) / 2 <= width / 3
  evilBelow : evil.width = 0 ∨ evil.height = 0 ∨ height / 2 + evil.height <= height

section Screen

variable {profile : Profile} {initrd : Initrd} {build : Build} {vga : Vga}
variable {logo neuro evil : Image}

structure Loads (profile : Profile) (initrd : Initrd) (logo neuro evil : Image) : Prop where
  logo : Image.new profile initrd "initrd/usr/share/images/logo.ppm" = .ok logo
  neuro : Image.new profile initrd "initrd/usr/share/images/neuro.ppm" = .ok neuro
  evil : Image.new profile initrd "initrd/usr/share/images/evil.ppm" = .ok evil

theorem initializeScreen_completes (hbuild : Labelled build) (hwidth : 640 <= vga.width)
    (hheight : 480 <= vga.height) (himages : Loads profile initrd logo neuro evil)
    (hlogo : logo.header.width <= vga.width) (hevil : evil.header.width <= vga.width)
    (h : Fits vga.width vga.height logo.header neuro.header evil.header) :
    (initializeScreen profile initrd build vga).Completes (Pixel.On vga.width vga.height) := by
  have hlogoBelow := h.logoBelow
  have hneuroBelow := h.neuroBelow
  have hevilRight := h.evilRight
  have hevilBelow := h.evilBelow
  rw [initializeScreen_eq, Traced.completes_then_iff, Traced.completes_then_iff,
    profile.sub_of_le 64 (Nat.div_le_self _ _), Traced.lift_ok_bind, Traced.completes_then_iff]
  refine ⟨?_, ?_, ?_, captions_complete profile initrd hbuild hwidth hheight⟩
  · rw [drawAt_completes_iff himages.logo (Nat.div_le_div_right hlogo)]
    lia
  · rw [drawAt_completes_iff himages.neuro h.neuroLeft]
    have hneuroLeft := h.neuroLeft
    lia
  · rw [drawAt_completes_iff himages.evil (by lia)]
    lia

theorem fits_of_completes (himages : Loads .dev initrd logo neuro evil)
    (hlogo : logo.header.width <= vga.width) (hevil : evil.header.width <= vga.width)
    (h : (initializeScreen .dev initrd build vga).Completes (Pixel.On vga.width vga.height)) :
    Fits vga.width vga.height logo.header neuro.header evil.header := by
  rw [initializeScreen_eq, Traced.completes_then_iff, Traced.completes_then_iff,
    Profile.dev.sub_of_le 64 (Nat.div_le_self _ _), Traced.lift_ok_bind,
    Traced.completes_then_iff] at h
  rcases h with ⟨hlogoFits, hneuroFits, hevilFits, _⟩
  have hneuroLeft := left_of_drawAt_completes himages.neuro hneuroFits
  rw [drawAt_completes_iff himages.logo (Nat.div_le_div_right hlogo)] at hlogoFits
  rw [drawAt_completes_iff himages.neuro hneuroLeft] at hneuroFits
  rw [drawAt_completes_iff himages.evil (by lia)] at hevilFits
  constructor
  · lia
  · exact hneuroLeft
  · lia
  · lia
  · lia

end Screen

/-!
# The build
-/

def buildOf (commit : String) : Build where
  version := "0.1.0"
  commit := commit
  authors := "Theomund"

structure ShortName (commit : String) : Prop where
  digits : forall c, c ∈ commit.toList -> c ∈ "0123456789abcdef".toList
  short : commit.toList.length <= 40

theorem prints_append {first second : List Char} (hfirst : Vga.Prints first)
    (hsecond : Vga.Prints second) : Vga.Prints (first ++ second) :=
  List.forall_mem_append.mpr ⟨hfirst, hsecond⟩

theorem ShortName.prints {commit : String} (h : ShortName commit) : Vga.Prints commit.toList := by
  have hdigits : Vga.Prints "0123456789abcdef".toList := by simp [Vga.Prints]
  intro c hc
  exact hdigits c (h.digits c hc)

theorem copyrightText_toList (build : Build) :
    (copyrightText build).toList = "Copyright (C) 2024 ".toList ++ build.authors.toList :=
  String.toList_append

theorem versionText_toList (build : Build) :
    (versionText build).toList = "Version ".toList ++ build.version.toList ++ " (".toList ++
      build.commit.toList ++ ")".toList := by
  unfold versionText
  rw [String.toList_append, String.toList_append, String.toList_append, String.toList_append]

theorem labelled_buildOf {commit : String} (h : ShortName commit) : Labelled (buildOf commit) := by
  have hversion : Vga.Prints (buildOf commit).version.toList := by simp [buildOf, Vga.Prints]
  have hauthors : Vga.Prints (buildOf commit).authors.toList := by simp [buildOf, Vga.Prints]
  have hcommit : Vga.Prints (buildOf commit).commit.toList := h.prints
  have hshort := h.short
  constructor
  · rw [versionText_toList]
    apply prints_append
    · apply prints_append
      · apply prints_append
        · exact prints_append (by simp [Vga.Prints]) hversion
        · simp [Vga.Prints]
      · exact hcommit
    · simp [Vga.Prints]
  · rw [versionText_toList]
    simp [buildOf]
    lia
  · rw [copyrightText_toList]
    exact prints_append (by simp [Vga.Prints]) hauthors
  · rw [copyrightText_toList]
    simp [buildOf]

/-- On a display of at least 640 by 480 pixels the opening screen is drawn to its end, and
inside the display, exactly when its images fit. -/
theorem opening_fits_iff {initrd : Initrd} {commit : String} (hcommit : ShortName commit)
    {vga : Vga} (hwidth : 640 <= vga.width) (hheight : 480 <= vga.height)
    {logo neuro evil : Image} (himages : Loads .dev initrd logo neuro evil)
    (hlogo : logo.header.width <= vga.width) (hevil : evil.header.width <= vga.width) :
    ((exists after, (initializeScreen .dev initrd (buildOf commit) vga).result = .ok after) ∧
      (forall pixel, pixel ∈ (initializeScreen .dev initrd (buildOf commit) vga).emitted ->
        pixel.x < vga.width ∧ pixel.y < vga.height)) <->
      Fits vga.width vga.height logo.header neuro.header evil.header := by
  constructor
  · intro h
    exact fits_of_completes himages hlogo hevil h
  · intro h
    exact initializeScreen_completes (labelled_buildOf hcommit) hwidth hheight himages hlogo
      hevil h

def blackFile (extent : Image.Extent) : List UInt8 :=
  Image.canonicalFile (Image.graphicHeader "P6" extent)
    (Image.rasterOf Image.pixelBytes extent fun _ _ => Image.grey 0)

def imageInitrd (logo neuro evil : Image.Extent) : Initrd where
  files :=
    (Image.holding "initrd/usr/share/images/logo.ppm" (blackFile logo)).files ++
      (Image.holding "initrd/usr/share/images/neuro.ppm" (blackFile neuro)).files ++
      (Image.holding "initrd/usr/share/images/evil.ppm" (blackFile evil)).files

def black (extent : Image.Extent) : Image :=
  Image.painted extent fun _ _ => Image.grey 0

theorem new_black {initrd : Initrd} {name : String} {extent : Image.Extent}
    (hallocates : extent.Allocates) (hlength : extent.height * extent.width * 3 < 2 ^ 64)
    (hfile : initrd.getData (name ++ ".ppm") = .ok (blackFile extent)) :
    Image.new .dev initrd (name ++ ".ppm") = .ok (black extent) := by
  have hraster : (Image.rasterOf Image.pixelBytes extent fun _ _ => Image.grey 0).length <
      2 ^ 64 := by
    rw [Image.rasterOf_length Image.pixelBytes_length]
    exact hlength
  rw [Image.new_ppm .dev hraster hfile, if_pos hallocates]
  rfl

theorem imageInitrd_loads {logo neuro evil : Image.Extent}
    (hlogo : logo.Allocates) (hneuro : neuro.Allocates) (hevil : evil.Allocates)
    (hlogoFits : logo.height * logo.width * 3 < 2 ^ 64)
    (hneuroFits : neuro.height * neuro.width * 3 < 2 ^ 64)
    (hevilFits : evil.height * evil.width * 3 < 2 ^ 64) :
    Loads .dev (imageInitrd logo neuro evil) (black logo) (black neuro) (black evil) := by
  have hlogoPath : "initrd/usr/share/images/logo" ++ ".ppm" =
      "initrd/usr/share/images/logo.ppm" := rfl
  have hneuroPath : "initrd/usr/share/images/neuro" ++ ".ppm" =
      "initrd/usr/share/images/neuro.ppm" := rfl
  have hevilPath : "initrd/usr/share/images/evil" ++ ".ppm" =
      "initrd/usr/share/images/evil.ppm" := rfl
  constructor
  · rw [← hlogoPath]
    apply new_black hlogo hlogoFits
    rw [hlogoPath]
    simp [imageInitrd, Image.holding, Initrd.getData]
  · rw [← hneuroPath]
    apply new_black hneuro hneuroFits
    rw [hneuroPath]
    simp [imageInitrd, Image.holding, Initrd.getData]
  · rw [← hevilPath]
    apply new_black hevil hevilFits
    rw [hevilPath]
    simp [imageInitrd, Image.holding, Initrd.getData]

open Image (point)

def broad : Image.Extent where
  width := 428
  height := 1
  width_lt := by simp
  height_lt := point.height_lt

theorem broad_allocates : broad.Allocates := by
  constructor <;> simp [broad, Image.pixelSize, Image.vecSize]

theorem shortName_zero : ShortName "0" := by
  constructor <;> simp

theorem points_load :
    Loads .dev (imageInitrd point point point) (black point) (black point) (black point) := by
  apply imageInitrd_loads Image.point_allocates Image.point_allocates Image.point_allocates <;>
    simp [point]

theorem opening_fits_iff_sample :
    ((exists after,
        (initializeScreen .dev (imageInitrd point point point) (buildOf "0")
          Screen.fontVga).result = .ok after) ∧
      (forall pixel,
        pixel ∈ (initializeScreen .dev (imageInitrd point point point) (buildOf "0")
          Screen.fontVga).emitted -> pixel.x < 640 ∧ pixel.y < 480)) <->
      Fits 640 480 (black point).header (black point).header (black point).header :=
  opening_fits_iff shortName_zero (Nat.le_refl 640) (Nat.le_refl 480) points_load
    (show 1 <= 640 by simp) (show 1 <= 640 by simp)

/-- An image of 428 columns fits a display of 640, but its left half is wider than a third
of the display. -/
theorem broad_image_overflows :
    Not (forall (initrd : Initrd) (commit : String), ShortName commit -> forall vga : Vga,
      640 <= vga.width -> 480 <= vga.height -> 4 * vga.width <= vga.pitch ->
      forall logo neuro evil : Image, Loads .dev initrd logo neuro evil ->
        logo.header.width <= vga.width -> logo.header.height <= vga.height ->
        neuro.header.width <= vga.width -> neuro.header.height <= vga.height ->
        evil.header.width <= vga.width -> evil.header.height <= vga.height ->
        (exists after, (initializeScreen .dev initrd (buildOf commit) vga).result = .ok after) ∧
        (forall pixel, pixel ∈ (initializeScreen .dev initrd (buildOf commit) vga).emitted ->
          pixel.x < vga.width ∧ pixel.y < vga.height)) := by
  intro h
  have hloads :
      Loads .dev (imageInitrd point broad point) (black point) (black broad) (black point) := by
    apply imageInitrd_loads Image.point_allocates broad_allocates Image.point_allocates <;>
      simp [point, broad]
  have hnarrow : (black point).header.width <= Screen.fontVga.width := show 1 <= 640 by simp
  have hlow : 1 <= 480 := by simp
  have hbroad : 428 <= 640 := by simp
  have hcompletes : (initializeScreen .dev (imageInitrd point broad point) (buildOf "0")
      Screen.fontVga).Completes (Pixel.On Screen.fontVga.width Screen.fontVga.height) :=
    h _ _ shortName_zero Screen.fontVga (Nat.le_refl 640) (Nat.le_refl 480)
      (Nat.le_refl 2560) _ _ _ hloads hnarrow hlow hbroad hlow hnarrow hlow
  have hfits := fits_of_completes hloads hnarrow hnarrow hcompletes
  have hleft : 428 / 2 <= 640 / 3 := hfits.neuroLeft
  simp at hleft

end Intro

end NeurOS
