import NeurOS.Foundation.Layout
import NeurOS.Foundation.Store
import NeurOS.Image.Decode
import NeurOS.Vga.Intro
import NeurOS.Vga.Pieces

/-!
# Painted rectangles

The framebuffer byte by byte, counted from its first.  A pixel is a store of four
bytes; an image and a character paint a rectangle of pixels and leave every other
byte as it was, also behind the ends of the rows.
-/

namespace NeurOS

open Foundation

def Pixel.store (pitch : Nat) (self : Pixel) : Store where
  address := self.offset pitch
  bytes := toLittleEndian 4 self.color

theorem Pixel.store_stop (pitch : Nat) (self : Pixel) :
    (self.store pitch).stop = self.offset pitch + 4 := by
  rw [Store.stop, store, toLittleEndian_length]

def paint (pitch : Nat) (ram : Ram) (pixels : List Pixel) : Ram :=
  ram.storeAll (pixels.map (Pixel.store pitch))

theorem paint_append (pitch : Nat) (ram : Ram) (first second : List Pixel) :
    paint pitch ram (first ++ second) = paint pitch (paint pitch ram first) second := by
  unfold paint Ram.storeAll
  rw [List.map_append, List.foldl_append]

def pixelAt (pitch : Nat) (ram : Ram) (x y : Nat) : Nat :=
  littleEndian (ram.read (y * pitch + x * 4) 4)

def InRectangle (pitch x y width height i : Nat) : Prop :=
  exists ix iy, ix < width ∧ iy < height ∧
    (y + iy) * pitch + (x + ix) * 4 <= i ∧ i < (y + iy) * pitch + (x + ix) * 4 + 4

/-- The pixels paint the rectangle, store inside the framebuffer and leave the other bytes
alone, whatever the framebuffer held. -/
structure Paints (vga : Vga) (pixels : List Pixel) (x y width height : Nat)
    (color : Nat -> Nat -> Nat) : Prop where
  inside : forall pixel, pixel ∈ pixels -> pixel.Inside vga
  painted : forall ram ix iy, ix < width -> iy < height ->
    pixelAt vga.pitch (paint vga.pitch ram pixels) (x + ix) (y + iy) = color ix iy
  others : forall ram i, Not (InRectangle vga.pitch x y width height i) ->
    paint vga.pitch ram pixels i = ram i

def rectangle (x y width height : Nat) (color : Nat -> Nat -> Nat) : List Pixel :=
  (List.range height).flatMap fun iy =>
    (List.range width).map fun ix => { x := x + ix, y := y + iy, color := color ix iy }

section Rectangle

variable {x y width height : Nat} {color : Nat -> Nat -> Nat}

theorem mem_rectangle_iff {pixel : Pixel} :
    pixel ∈ rectangle x y width height color <->
      exists ix iy, ix < width ∧ iy < height ∧
        pixel = { x := x + ix, y := y + iy, color := color ix iy } := by
  unfold rectangle
  rw [List.mem_flatMap]
  constructor
  · intro h
    rcases h with ⟨iy, hiy, hrow⟩
    rcases List.mem_map.mp hrow with ⟨ix, hix, hpixel⟩
    exact ⟨ix, iy, List.mem_range.mp hix, List.mem_range.mp hiy, hpixel.symm⟩
  · intro h
    rcases h with ⟨ix, iy, hix, hiy, hpixel⟩
    exact ⟨iy, List.mem_range.mpr hiy, List.mem_map.mpr ⟨ix, List.mem_range.mpr hix, hpixel.symm⟩⟩

theorem offset_before {pitch screen : Nat} (hpitch : 4 * screen <= pitch) {first second : Pixel}
    (hfirst : first.x < screen)
    (h : first.y < second.y ∨ first.y = second.y ∧ first.x < second.x) :
    first.offset pitch + 4 <= second.offset pitch := by
  unfold Pixel.offset
  rcases h with habove | ⟨hrow, hleft⟩
  · have hrows : (first.y + 1) * pitch <= second.y * pitch := Nat.mul_le_mul_right pitch habove
    rw [Nat.succ_mul] at hrows
    lia
  · rw [hrow]
    lia

theorem rectangle_apart {pitch screen : Nat} (hpitch : 4 * screen <= pitch)
    (hwidth : x + width <= screen) :
    ((rectangle x y width height color).map (Pixel.store pitch)).Pairwise Store.Apart := by
  have hbefore : forall first second : Pixel, first.x < screen ->
      (first.y < second.y ∨ first.y = second.y ∧ first.x < second.x) ->
      (first.store pitch).Apart (second.store pitch) := by
    intro first second hfirst h
    left
    rw [Pixel.store_stop]
    exact offset_before hpitch hfirst h
  rw [List.pairwise_map]
  unfold rectangle
  rw [List.pairwise_flatMap]
  constructor
  · intro iy _
    rw [List.pairwise_map]
    apply List.pairwise_lt_range.imp_of_mem
    intro first second hfirst hsecond hlt
    rw [List.mem_range] at hfirst
    apply hbefore
    · show x + first < screen
      lia
    · exact Or.inr ⟨rfl, Nat.add_lt_add_left hlt x⟩
  · apply List.pairwise_lt_range.imp
    intro above below hlt first hfirst second hsecond
    rcases List.mem_map.mp hfirst with ⟨ix, hix, rfl⟩
    rcases List.mem_map.mp hsecond with ⟨jx, hjx, rfl⟩
    rw [List.mem_range] at hix
    apply hbefore
    · show x + ix < screen
      lia
    · exact Or.inl (Nat.add_lt_add_left hlt y)

theorem rectangle_paints {vga : Vga} (hpitch : 4 * vga.width <= vga.pitch)
    (hwidth : x + width <= vga.width) (hheight : y + height <= vga.height)
    (hcolor : forall ix iy, ix < width -> iy < height -> color ix iy < 2 ^ 32) :
    Paints vga (rectangle x y width height color) x y width height color := by
  refine ⟨?_, ?_, ?_⟩
  · intro pixel hpixel
    rcases mem_rectangle_iff.mp hpixel with ⟨ix, iy, hix, hiy, rfl⟩
    rw [Pixel.inside_iff hpitch]
    exact ⟨by show x + ix < vga.width; lia, by show y + iy < vga.height; lia⟩
  · intro ram ix iy hix hiy
    have hmem : ({ x := x + ix, y := y + iy, color := color ix iy } : Pixel).store vga.pitch ∈
        (rectangle x y width height color).map (Pixel.store vga.pitch) :=
      List.mem_map_of_mem (mem_rectangle_iff.mpr ⟨ix, iy, hix, hiy, rfl⟩)
    have hread : (ram.storeAll _).read _ _ = _ :=
      Ram.storeAll_read (rectangle_apart hpitch hwidth) hmem
    have hvalue : color ix iy < 256 ^ 4 := hcolor ix iy hix hiy
    unfold pixelAt paint
    rw [← littleEndian_toLittleEndian hvalue]
    exact congrArg littleEndian hread
  · intro ram i hi
    apply Ram.storeAll_outside
    intro store hstore hcovers
    rcases List.mem_map.mp hstore with ⟨pixel, hpixel, rfl⟩
    rcases mem_rectangle_iff.mp hpixel with ⟨ix, iy, hix, hiy, rfl⟩
    rw [Store.Covers, Pixel.store_stop] at hcovers
    exact hi ⟨ix, iy, hix, hiy, hcovers.1, hcovers.2⟩

theorem zipIdx_take_eq {items : List α} {count : Nat} (h : count <= items.length) (default : α) :
    items.zipIdx.take count = (List.range count).map fun i => (items.getD i default, i) := by
  apply List.ext_getElem
  · simp [h]
  · intro i hi hi'
    have hlt : i < items.length := by
      simp at hi
      lia
    simp [hlt]

end Rectangle

/-!
# Images
-/

namespace Image

structure Rectangular (image : Image) : Prop where
  rows : image.data.length = image.header.height
  columns : forall row, row ∈ image.data -> row.length = image.header.width

theorem decode_rectangular {profile : Profile} {extension : String} {header : Header}
    {pixels : List UInt8} {data : List (List Pixel)}
    (h : decode profile extension header pixels = .ok data) :
    Rectangular { header, data } := by
  rcases Outcome.bind_eq_ok_iff.mp h with ⟨_, _, h⟩
  rcases Outcome.bind_eq_ok_iff.mp h with ⟨_, _, h⟩
  have hrows := Outcome.mapM_eq_ok_iff.mp h
  constructor
  · rw [← hrows.length_eq, List.length_range]
  · intro row hrow
    rcases List.getElem_of_mem hrow with ⟨y, hy, heq⟩
    have hcolumns := Outcome.mapM_eq_ok_iff.mp (hrows.get (hrows.length_eq ▸ hy) hy)
    have hlength := hcolumns.length_eq
    rw [List.length_range] at hlength
    rw [← heq]
    exact hlength.symm

theorem new_rectangular {profile : Profile} {initrd : Initrd} {path : String} {image : Image}
    (h : new profile initrd path = .ok image) : image.Rectangular := by
  rcases Outcome.bind_eq_ok_iff.mp h with ⟨bytes, _, h⟩
  rcases Outcome.bind_eq_ok_iff.mp h with ⟨extension, _, h⟩
  rcases Outcome.bind_eq_ok_iff.mp h with ⟨lines, _, h⟩
  rcases Outcome.bind_eq_ok_iff.mp h with ⟨index, _, h⟩
  cases hutf8 : Text.fromUtf8 (bytes.take index) with
  | none => simp [hutf8] at h
  | some text =>
      rw [hutf8] at h
      rcases Outcome.bind_eq_ok_iff.mp h with ⟨_, _, h⟩
      rcases Outcome.bind_eq_ok_iff.mp h with ⟨header, _, h⟩
      rcases Outcome.bind_eq_ok_iff.mp h with ⟨data, hdata, h⟩
      rw [← Except.ok.inj h]
      exact decode_rectangular hdata

def pixel (self : Image) (ix iy : Nat) : Pixel :=
  (self.data.getD iy []).getD ix (grey 0)

def Pixel.rgb (self : Pixel) : Nat :=
  self.red.toNat <<< 16 ||| self.green.toNat <<< 8 ||| self.blue.toNat

theorem Pixel.color_eq_rgb (self : Pixel) : self.color = self.rgb := by
  have hgreen : self.green.toNat <<< 8 < 2 ^ 16 := by
    have hbyte : self.green.toNat < 2 ^ 8 := self.green.toNat_lt
    rw [Nat.shiftLeft_eq]
    lia
  have hhigh : self.red.toNat <<< 16 ||| self.green.toNat <<< 8 =
      (self.red.toNat * 256 + self.green.toNat) <<< 8 := by
    rw [← Nat.shiftLeft_add_eq_or_of_lt hgreen]
    simp only [Nat.shiftLeft_eq]
    lia
  have hblue : self.blue.toNat < 2 ^ 8 := self.blue.toNat_lt
  rw [rgb, hhigh, ← Nat.shiftLeft_add_eq_or_of_lt hblue, Nat.shiftLeft_eq]
  unfold color getRed getGreen getBlue
  lia

theorem Pixel.rgb_lt (self : Pixel) : self.rgb < 2 ^ 32 := by
  have hred : self.red.toNat < 2 ^ 8 := self.red.toNat_lt
  have hgreen : self.green.toNat < 2 ^ 8 := self.green.toNat_lt
  have hblue : self.blue.toNat < 2 ^ 8 := self.blue.toNat_lt
  rw [← color_eq_rgb]
  unfold color getRed getGreen getBlue
  lia

theorem Rectangular.setPosition {image : Image} (h : image.Rectangular) (x y : Nat) :
    (image.setPosition x y).Rectangular :=
  ⟨h.rows, h.columns⟩

theorem draw_eq {image : Image} (h : image.Rectangular) :
    image.draw =
      Traced.emits
        (rectangle image.header.x image.header.y image.header.width image.header.height
          fun ix iy => (image.pixel ix iy).rgb) ⟨⟩ := by
  have hcolumns : forall row : List Pixel × Nat,
      row ∈ image.data.zipIdx.take image.header.height ->
      ((row.1.zipIdx.take image.header.width).forM fun column =>
        Vga.drawPixel (image.header.x + column.2) (image.header.y + row.2) column.1.color) =
      Traced.emits ((row.1.zipIdx.take image.header.width).map fun column =>
        { x := image.header.x + column.2
          y := image.header.y + row.2
          color := column.1.color }) ⟨⟩ := by
    intro row _
    rw [List.map_eq_flatMap]
    exact Traced.forM_emits (fun _ _ => rfl)
  unfold draw
  rw [Traced.forM_emits hcolumns, zipIdx_take_eq h.rows.ge [], List.flatMap_map]
  unfold rectangle
  refine congrArg (fun pixels => Traced.emits pixels PUnit.unit) (List.flatMap_congr ?_)
  intro iy hiy
  rw [List.mem_range, ← h.rows] at hiy
  have hlength : (image.data.getD iy []).length = image.header.width := by
    rw [List.getD_eq_getElem image.data [] hiy]
    exact h.columns _ (List.getElem_mem hiy)
  simp only [zipIdx_take_eq hlength.ge (grey 0), List.map_map, Pixel.color_eq_rgb]
  rfl

end Image

/-!
# Characters
-/

namespace Vga

def glyphBit (font : Font) (c : Char) (cx cy : Nat) : Bool :=
  (font.data.getD (c.toNat * 16 + cy) 0).toNat.testBit (7 - cx)

theorem masks_getD {cx : Nat} (h : cx < 8) : masks.getD cx 0 = (2 ^ (7 - cx)).toUInt8 := by
  have hmask : masks[cx]? = some (2 ^ (7 - cx)).toUInt8 := Image.masks_getElem? cx h
  rw [List.getD_eq_getElem?_getD, hmask, Option.getD_some]

theorem glyphPixels_rectangle {self : Vga} {c : Char} (hy : 12 <= self.cursor.y)
    (hc : c.toNat < 256) :
    self.glyphPixels (self.font.data.drop (c.toNat * 16)) =
      rectangle self.cursor.x (self.cursor.y - 12) 8 16 fun cx cy =>
        if glyphBit self.font c cx cy then self.cursor.fg else self.cursor.bg := by
  have hrows : 16 <= (self.font.data.drop (c.toNat * 16)).length := by
    rw [List.length_drop, self.font.data_length]
    lia
  have hmasks : 8 <= masks.length := Nat.le_refl 8
  unfold glyphPixels rectangle
  rw [zipIdx_take_eq hrows 0, zipIdx_take_eq hmasks 0, List.flatMap_map]
  apply List.flatMap_congr
  intro cy _
  dsimp only
  rw [List.map_map]
  apply List.map_congr_left
  intro cx hcx
  rw [List.mem_range] at hcx
  have hrow : self.cursor.y + cy - 12 = self.cursor.y - 12 + cy := by lia
  have hglyph : (self.font.data.drop (c.toNat * 16)).getD cy 0 =
      self.font.data.getD (c.toNat * 16 + cy) 0 := by
    simp [List.getD_eq_getElem?_getD]
  simp only [Function.comp, hrow, hglyph, masks_getD hcx, Image.and_mask_iff _
    (show 7 - cx < 8 by lia)]
  unfold glyphBit
  cases (self.font.data.getD (c.toNat * 16 + cy) 0).toNat.testBit (7 - cx) with
  | true => rfl
  | false => rfl

theorem writeChar_rectangle (profile : Profile) {self : Vga} {c : Char}
    (hy : 12 <= self.cursor.y) (hc : c.toNat < 256) :
    self.writeChar profile c =
      Traced.emits
        (rectangle self.cursor.x (self.cursor.y - 12) 8 16 fun cx cy =>
          if glyphBit self.font c cx cy then self.cursor.fg else self.cursor.bg) ⟨⟩ := by
  have hglyphs : glyphsFrom self.font.data (c.toNat * 16) =
      .ok (self.font.data.drop (c.toNat * 16)) := by
    unfold glyphsFrom
    rw [self.font.data_length, if_pos (by lia)]
  rw [writeChar_of_glyphs profile hy hglyphs, glyphPixels_rectangle hy hc]

end Vga

/-- An image and a character paint their rectangles and nothing else. -/
theorem drawing_paints (profile : Profile) (vga : Vga) (hpitch : 4 * vga.width <= vga.pitch) :
    (forall (image : Image) (x y : Nat), image.Rectangular ->
      x + image.header.width <= vga.width -> y + image.header.height <= vga.height ->
      exists pixels, (image.setPosition x y).draw = Traced.emits pixels ⟨⟩ ∧
        Paints vga pixels x y image.header.width image.header.height
          fun ix iy => (image.pixel ix iy).rgb) ∧
    (forall c : Char, c.toNat <= 255 -> 12 <= vga.cursor.y -> vga.cursor.x + 8 <= vga.width ->
      vga.cursor.y + 4 <= vga.height -> vga.cursor.fg < 2 ^ 32 -> vga.cursor.bg < 2 ^ 32 ->
      exists pixels, vga.writeChar profile c = Traced.emits pixels ⟨⟩ ∧
        Paints vga pixels vga.cursor.x (vga.cursor.y - 12) 8 16
          fun cx cy => if Vga.glyphBit vga.font c cx cy then vga.cursor.fg else vga.cursor.bg) := by
  constructor
  · intro image x y himage hwidth hheight
    refine ⟨_, Image.draw_eq (himage.setPosition x y), ?_⟩
    exact rectangle_paints hpitch hwidth hheight (fun ix iy _ _ => (image.pixel ix iy).rgb_lt)
  · intro c hc hy hwidth hheight hfg hbg
    refine ⟨_, Vga.writeChar_rectangle profile hy (Nat.lt_succ_of_le hc), ?_⟩
    apply rectangle_paints hpitch hwidth
    · lia
    · intro cx cy _ _
      split
      · exact hfg
      · exact hbg

def cornerImage : Image where
  header := { width := 2, height := 2, x := 0, y := 0 }
  data :=
    [[Image.grey 1, Image.grey 2],
      [Image.grey 3, { red := 0xFF, green := 0x80, blue := 0x01 }]]

theorem cornerImage_rectangular : cornerImage.Rectangular := by
  constructor
  · rfl
  · simp [cornerImage]

theorem drawing_paints_sample :
    (exists pixels, (cornerImage.setPosition 638 478).draw = Traced.emits pixels ⟨⟩ ∧
      Paints Screen.clearedVga pixels 638 478 2 2 fun ix iy => (cornerImage.pixel ix iy).rgb) ∧
    (exists pixels, Screen.clearedVga.writeChar .dev 'N' = Traced.emits pixels ⟨⟩ ∧
      Paints Screen.clearedVga pixels 8 12 8 16 fun cx cy =>
        if Vga.glyphBit Screen.fontVga.font 'N' cx cy then Color.white else Color.black) := by
  rcases drawing_paints .dev Screen.clearedVga Screen.fontVga_pitch with ⟨himage, hcharacter⟩
  constructor
  · exact himage cornerImage 638 478 cornerImage_rectangular (Nat.le_refl 640) (Nat.le_refl 480)
  · apply hcharacter 'N'
    · simp
    · show 12 <= 24
      lia
    · show 8 + 8 <= 640
      lia
    · show 24 + 4 <= 480
      lia
    · show Color.white < 2 ^ 32
      simp [Color.white]
    · show Color.black < 2 ^ 32
      simp [Color.black]

end NeurOS
