import NeurOS.Image.Decode

/-!
# Rasters

The decoder cuts the file of a grey or color image at its third newline.  What stands
before the cut has to be a text with the extent for its second and third word; what stands
behind it has to have the bytes of every pixel.
-/

namespace NeurOS

open Foundation

namespace Image

/-!
# The third newline
-/

theorem newlines_cons (byte : UInt8) (rest : List UInt8) :
    newlines (byte :: rest) =
      (if byte = 10 then [0] else []) ++ (newlines rest).map fun i => i + 1 := by
  have happend : newlines ([byte] ++ rest) = _ := newlines_append [byte] rest
  rw [List.singleton_append] at happend
  rw [happend]
  congr 1
  by_cases hbyte : byte = 10
  · simp [newlines, hbyte]
  · simp [newlines, hbyte]

theorem newlines_eq_some_iff {file : List UInt8} {count index : Nat} :
    (newlines file)[count]? = some index <->
      exists lead behind, file = lead ++ 10 :: behind ∧ lead.count 10 = count ∧
        lead.length = index := by
  constructor
  · intro h
    induction file generalizing count index with
    | nil => cases h
    | cons byte rest ih =>
        rw [newlines_cons] at h
        by_cases hbyte : byte = 10
        · rw [if_pos hbyte, List.singleton_append] at h
          cases count with
          | zero =>
              injection h with hindex
              exact ⟨[], rest, by rw [hbyte, List.nil_append], rfl, hindex⟩
          | succ count =>
              rw [List.getElem?_cons_succ, List.getElem?_map, Option.map_eq_some_iff] at h
              rcases h with ⟨i, hi, hindex⟩
              rcases ih hi with ⟨lead, behind, hrest, hcount, hlength⟩
              refine ⟨byte :: lead, behind, ?_, ?_, ?_⟩
              · rw [hrest, List.cons_append]
              · rw [hbyte, List.count_cons_self, hcount]
              · rw [List.length_cons, hlength, hindex]
        · rw [if_neg hbyte, List.nil_append, List.getElem?_map, Option.map_eq_some_iff] at h
          rcases h with ⟨i, hi, hindex⟩
          rcases ih hi with ⟨lead, behind, hrest, hcount, hlength⟩
          refine ⟨byte :: lead, behind, ?_, ?_, ?_⟩
          · rw [hrest, List.cons_append]
          · rw [List.count_cons_of_ne hbyte, hcount]
          · rw [List.length_cons, hlength, hindex]
  · rintro ⟨lead, behind, rfl, rfl, rfl⟩
    exact newlines_behind lead behind

/-!
# Greys and colors
-/

inductive Graphic where
  | pgm
  | ppm
  deriving DecidableEq, Repr

namespace Graphic

def extension : Graphic -> String
  | .pgm => "pgm"
  | .ppm => "ppm"

def magic : Graphic -> String
  | .pgm => "P5"
  | .ppm => "P6"

def size : Graphic -> Nat
  | .pgm => 1
  | .ppm => 3

def pixel (kind : Graphic) (raster : List UInt8) (place : Nat) : Pixel :=
  match kind with
  | .pgm => grey (raster.getD place 0)
  | .ppm =>
      { red := raster.getD (place * 3) 0
        green := raster.getD (place * 3 + 1) 0
        blue := raster.getD (place * 3 + 2) 0 }

def picture (kind : Graphic) (extent : Extent) (raster : List UInt8) : Image :=
  painted extent fun x y => kind.pixel raster (y * extent.width + x)

def area (kind : Graphic) (extent : Extent) : Nat :=
  extent.height * extent.width * kind.size

section Decoding

variable {profile : Profile} {extent : Extent} {raster : List UInt8}

theorem index_eq_ok_iff {i : Nat} {byte : UInt8} :
    Outcome.index raster i = .ok byte <-> i < raster.length ∧ byte = raster.getD i 0 := by
  unfold Outcome.index
  by_cases hi : i < raster.length
  · rw [List.getElem?_eq_getElem hi, List.getD_eq_getElem _ _ hi]
    simp [hi, eq_comm]
  · rw [List.getElem?_eq_none (Nat.le_of_not_lt hi)]
    simp [hi]

theorem pgmPixel_eq_ok_iff {width x y : Nat} {pixel : Pixel} (h : y * width + x < 2 ^ 64) :
    pgmPixel profile width raster x y = .ok pixel <->
      y * width + x < raster.length ∧ pixel = Graphic.pgm.pixel raster (y * width + x) := by
  unfold pgmPixel
  rw [profile.mul_of_lt (by lia), Outcome.ok_bind, profile.add_of_lt h, Outcome.ok_bind,
    Outcome.bind_eq_ok_iff]
  constructor
  · rintro ⟨value, hvalue, hpixel⟩
    rcases index_eq_ok_iff.mp hvalue with ⟨hplace, rfl⟩
    injection hpixel with hpixel
    exact ⟨hplace, hpixel.symm⟩
  · rintro ⟨hplace, rfl⟩
    exact ⟨_, index_eq_ok_iff.mpr ⟨hplace, rfl⟩, rfl⟩

theorem ppmByte_eq_ok_iff {width x y color : Nat} {byte : UInt8}
    (h : (y * width + x) * 3 + color < 2 ^ 64) :
    ppmByte profile width raster x y color = .ok byte <->
      (y * width + x) * 3 + color < raster.length ∧
        byte = raster.getD ((y * width + x) * 3 + color) 0 := by
  have hplace : y * width * 3 + (3 * x + color) = (y * width + x) * 3 + color := by lia
  unfold ppmByte
  rw [profile.mul_of_lt (by lia), Outcome.ok_bind, profile.mul_of_lt (by lia), Outcome.ok_bind,
    profile.mul_of_lt (by lia), Outcome.ok_bind, profile.add_of_lt (by lia), Outcome.ok_bind,
    profile.add_of_lt (by lia), Outcome.ok_bind, hplace]
  exact index_eq_ok_iff

theorem ppmPixel_eq_ok_iff {width x y : Nat} {pixel : Pixel}
    (h : (y * width + x) * 3 + 2 < 2 ^ 64) :
    ppmPixel profile width raster x y = .ok pixel <->
      (y * width + x) * 3 + 2 < raster.length ∧
        pixel = Graphic.ppm.pixel raster (y * width + x) := by
  unfold ppmPixel
  rw [Outcome.bind_eq_ok_iff]
  constructor
  · rintro ⟨red, hred, hrest⟩
    rcases Outcome.bind_eq_ok_iff.mp hrest with ⟨green, hgreen, hlast⟩
    rcases Outcome.bind_eq_ok_iff.mp hlast with ⟨blue, hblue, hpixel⟩
    rcases (ppmByte_eq_ok_iff (by lia)).mp hred with ⟨_, rfl⟩
    rcases (ppmByte_eq_ok_iff (by lia)).mp hgreen with ⟨_, rfl⟩
    rcases (ppmByte_eq_ok_iff (by lia)).mp hblue with ⟨hplace, rfl⟩
    injection hpixel with hpixel
    exact ⟨hplace, hpixel.symm⟩
  · rintro ⟨hplace, rfl⟩
    refine ⟨_, (ppmByte_eq_ok_iff (by lia)).mpr ⟨by lia, rfl⟩, ?_⟩
    rw [Outcome.bind_eq_ok_iff]
    refine ⟨_, (ppmByte_eq_ok_iff (by lia)).mpr ⟨by lia, rfl⟩, ?_⟩
    rw [Outcome.bind_eq_ok_iff]
    exact ⟨_, (ppmByte_eq_ok_iff (by lia)).mpr ⟨by lia, rfl⟩, rfl⟩

theorem pixelAt_eq_ok_iff {kind : Graphic} {width x y : Nat} {pixel : Pixel}
    (h : (y * width + x + 1) * kind.size < 2 ^ 64) :
    pixelAt profile kind.extension width raster x y = .ok pixel <->
      (y * width + x + 1) * kind.size <= raster.length ∧
        pixel = kind.pixel raster (y * width + x) := by
  cases kind with
  | pgm =>
      have hbound : y * width + x < 2 ^ 64 := by
        change (y * width + x + 1) * 1 < 2 ^ 64 at h
        lia
      have hpgm : pixelAt profile Graphic.pgm.extension width raster x y =
          pgmPixel profile width raster x y := by
        simp [pixelAt, extension]
      rw [hpgm, pgmPixel_eq_ok_iff hbound, size, Nat.mul_one]
      rfl
  | ppm =>
      have hbound : (y * width + x) * 3 + 2 < 2 ^ 64 := by
        change (y * width + x + 1) * 3 < 2 ^ 64 at h
        lia
      have hppm : pixelAt profile Graphic.ppm.extension width raster x y =
          ppmPixel profile width raster x y := by
        simp [pixelAt, extension]
      have hplace : (y * width + x) * 3 + 2 < raster.length <->
          (y * width + x + 1) * 3 <= raster.length := by lia
      rw [hppm, ppmPixel_eq_ok_iff hbound, hplace]
      rfl

theorem place_of_lt {x y : Nat} (hx : x < extent.width) (hy : y < extent.height)
    (kind : Graphic) :
    (y * extent.width + x + 1) * kind.size <= kind.area extent :=
  Nat.mul_le_mul_right kind.size (place_lt hx hy)

theorem decode_of_le {kind : Graphic} (hallocates : extent.Allocates)
    (hfits : kind.area extent < 2 ^ 64) (hlength : kind.area extent <= raster.length) :
    decode profile kind.extension
        { width := extent.width, height := extent.height, x := 0, y := 0 } raster =
      .ok (kind.picture extent raster).data := by
  have hcells : forall y, y < extent.height -> forall x, x < extent.width ->
      pixelAt profile kind.extension extent.width raster x y =
        .ok (kind.pixel raster (y * extent.width + x)) := by
    intro y hy x hx
    have hplace := place_of_lt hx hy kind
    exact (pixelAt_eq_ok_iff (by lia)).mpr ⟨by lia, rfl⟩
  rw [decode_eq hcells, if_pos hallocates]
  rfl

theorem last_place {width height : Nat} (hwidth : 0 < width) (hheight : 0 < height) :
    (height - 1) * width + (width - 1) + 1 = height * width := by
  have hrows : (height - 1 + 1) * width = (height - 1) * width + width := Nat.succ_mul _ _
  rw [Nat.sub_add_cancel hheight] at hrows
  lia

theorem area_le_of_rows {kind : Graphic} {data : List (List Pixel)}
    (hfits : kind.area extent < 2 ^ 64)
    (h : ((List.range extent.height).mapM fun y =>
      (List.range extent.width).mapM fun x =>
        pixelAt profile kind.extension extent.width raster x y) = .ok data) :
    kind.area extent <= raster.length := by
  by_cases hempty : extent.height = 0 ∨ extent.width = 0
  · have harea : kind.area extent = 0 := by
      rcases hempty with hheight | hwidth
      · simp [area, hheight]
      · simp [area, hwidth]
    lia
  · have hy : extent.height - 1 < extent.height := by lia
    have hx : extent.width - 1 < extent.width := by lia
    rcases Outcome.exists_ok_of_mapM h (List.mem_range.mpr hy) with ⟨row, hrow⟩
    rcases Outcome.exists_ok_of_mapM hrow (List.mem_range.mpr hx) with ⟨pixel, hpixel⟩
    have hplace := place_of_lt hx hy kind
    have hlast := ((pixelAt_eq_ok_iff (by lia)).mp hpixel).1
    rw [last_place (by lia) (by lia)] at hlast
    exact hlast

/-- A raster is decoded exactly when it has the bytes of every pixel and there may be room
for the pixels. -/
theorem decode_eq_ok_iff {kind : Graphic} {data : List (List Pixel)}
    (hfits : kind.area extent < 2 ^ 64) :
    decode profile kind.extension
        { width := extent.width, height := extent.height, x := 0, y := 0 } raster = .ok data <->
      extent.Allocates ∧ kind.area extent <= raster.length ∧
        data = (kind.picture extent raster).data := by
  constructor
  · intro h
    by_cases hallocates : extent.Allocates
    · have hrows := h
      rw [decode_eq_if, if_pos hallocates] at hrows
      have hlength := area_le_of_rows hfits hrows
      rw [decode_of_le hallocates hfits hlength] at h
      exact ⟨hallocates, hlength, (Except.ok.inj h).symm⟩
    · rw [decode_eq_if, if_neg hallocates] at h
      cases h
  · rintro ⟨hallocates, hlength, rfl⟩
    exact decode_of_le hallocates hfits hlength

theorem pixel_eq_iff {kind : Graphic} {other : List UInt8} {place : Nat} :
    kind.pixel raster place = kind.pixel other place <->
      forall color, color < kind.size ->
        raster.getD (place * kind.size + color) 0 = other.getD (place * kind.size + color) 0 := by
  cases kind with
  | pgm =>
      constructor
      · intro h color hcolor
        have hzero : color = 0 := Nat.lt_one_iff.mp hcolor
        have hred := congrArg Pixel.red h
        rw [hzero]
        simpa [pixel, grey, size] using hred
      · intro h
        have hgrey := h 0 Nat.zero_lt_one
        simp only [size, Nat.mul_one, Nat.add_zero] at hgrey
        simp only [pixel, hgrey]
  | ppm =>
      constructor
      · intro h color hcolor
        simp only [pixel, Pixel.mk.injEq] at h
        rcases h with ⟨hred, hgreen, hblue⟩
        have hcases : color = 0 ∨ color = 1 ∨ color = 2 := by
          change color < 3 at hcolor
          lia
        rcases hcases with rfl | rfl | rfl
        · exact hred
        · exact hgreen
        · exact hblue
      · intro h
        have hred : raster.getD (place * 3) 0 = other.getD (place * 3) 0 :=
          h 0 (by simp [size])
        have hgreen : raster.getD (place * 3 + 1) 0 = other.getD (place * 3 + 1) 0 :=
          h 1 (by simp [size])
        have hblue : raster.getD (place * 3 + 2) 0 = other.getD (place * 3 + 2) 0 :=
          h 2 (by simp [size])
        simp only [pixel, hred, hgreen, hblue]

theorem picture_eq_iff {kind : Graphic} {other : List UInt8}
    (hraster : kind.area extent <= raster.length) (hother : kind.area extent <= other.length) :
    kind.picture extent raster = kind.picture extent other <->
      raster.take (kind.area extent) = other.take (kind.area extent) := by
  have hsize : 0 < kind.size := by cases kind <;> simp [size]
  constructor
  · intro h
    apply List.ext_getElem
    · rw [List.length_take_of_le hraster, List.length_take_of_le hother]
    · intro i hi hi'
      rw [List.length_take_of_le hraster] at hi
      have hplace : i / kind.size < extent.height * extent.width :=
        Nat.div_lt_of_lt_mul (by rw [Nat.mul_comm]; exact hi)
      have hwidth : 0 < extent.width := by
        by_contra hzero
        have hnone : extent.width = 0 := by lia
        rw [hnone, Nat.mul_zero] at hplace
        lia
      have hx : i / kind.size % extent.width < extent.width := Nat.mod_lt _ hwidth
      have hy : i / kind.size / extent.width < extent.height :=
        Nat.div_lt_of_lt_mul (by rw [Nat.mul_comm]; exact hplace)
      have hpixel := pixel_eq_iff.mp (painted_inj h _ hy _ hx) (i % kind.size)
        (Nat.mod_lt _ hsize)
      rw [Nat.div_add_mod', Nat.div_add_mod', List.getD_eq_getElem _ _ (by lia),
        List.getD_eq_getElem _ _ (by lia)] at hpixel
      rw [List.getElem_take, List.getElem_take]
      exact hpixel
  · intro h
    apply painted_congr
    intro y hy x hx
    rw [pixel_eq_iff]
    intro color hcolor
    have hplace := place_of_lt hx hy kind
    have hinside : (y * extent.width + x) * kind.size + color < kind.area extent := by
      rw [Nat.succ_mul] at hplace
      lia
    have hbyte := congrArg
      (fun bytes => bytes.getD ((y * extent.width + x) * kind.size + color) 0) h
    simpa [List.getD_eq_getElem?_getD, List.getElem?_take, hinside] using hbyte

end Decoding

/-!
# The whole file
-/

/-- The third newline of the file stands between a text and the bytes behind it. -/
structure Cut (file : List UInt8) (text : String) (behind : List UInt8) : Prop where
  file_eq : file = Text.bytesOf text ++ 10 :: behind
  lines : (Text.bytesOf text).count 10 = 2

theorem new_eq_ok_iff {profile : Profile} {initrd : Initrd} {base : String} {kind : Graphic}
    {file : List UInt8} {image : Image}
    (hfile : initrd.getData (base ++ "." ++ kind.extension) = .ok file) :
    new profile initrd (base ++ "." ++ kind.extension) = .ok image <->
      exists text behind header data, Cut file text behind ∧ parseHeader text = .ok header ∧
        decode profile kind.extension header behind = .ok data ∧ image = { header, data } := by
  have hlast : (Text.splitTerminator '.' (base ++ "." ++ kind.extension)).getLast? =
      some kind.extension := by
    cases kind with
    | pgm => exact Text.splitTerminator_last (by simp [extension]) (by simp [extension])
    | ppm => exact Text.splitTerminator_last (by simp [extension]) (by simp [extension])
  have hlines : headerLines kind.extension = .ok 2 := by
    cases kind <;> simp [headerLines, extension]
  unfold new
  rw [hfile, Outcome.ok_bind, hlast, Outcome.unwrap_some, Outcome.ok_bind, hlines,
    Outcome.ok_bind]
  constructor
  · intro h
    rcases Outcome.bind_eq_ok_iff.mp h with ⟨index, hindex, h⟩
    rcases newlines_eq_some_iff.mp (Outcome.unwrap_eq_ok_iff.mp hindex) with
      ⟨lead, behind, rfl, hlines, rfl⟩
    rw [List.take_left, ← List.drop_drop, List.drop_left] at h
    cases hutf8 : Text.fromUtf8 lead with
    | none =>
        rw [hutf8] at h
        cases h
    | some text =>
        rw [hutf8] at h
        dsimp only at h
        rw [Outcome.ok_bind] at h
        rcases Outcome.bind_eq_ok_iff.mp h with ⟨header, hheader, h⟩
        rcases Outcome.bind_eq_ok_iff.mp h with ⟨data, hdata, himage⟩
        injection himage with himage
        rw [Text.fromUtf8_eq_some_iff] at hutf8
        rw [← hutf8] at hlines ⊢
        exact ⟨text, behind, header, data, ⟨rfl, hlines⟩, hheader, hdata, himage.symm⟩
  · rintro ⟨text, behind, header, data, ⟨rfl, hlines⟩, hheader, hdata, rfl⟩
    have hindex := newlines_behind (Text.bytesOf text) behind
    rw [hlines] at hindex
    rw [hindex, Outcome.unwrap_some, Outcome.ok_bind, List.take_left, Text.fromUtf8_bytesOf]
    dsimp only
    rw [Outcome.ok_bind, hheader, Outcome.ok_bind, ← List.drop_drop, List.drop_left,
      List.drop_one, List.tail_cons, hdata]
    rfl

end Graphic

end Image

end NeurOS
