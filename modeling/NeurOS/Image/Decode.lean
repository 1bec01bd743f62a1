import NeurOS.Image.Model
import Mathlib.Data.Nat.Bitwise

/-!
# Decoding of canonical files

A canonical file is a header of text lines, followed by the raster row by row.
The greys and the colors are found at their places in the raster; the bits of a
bitmap are not, unless every row fills its bytes.
-/

namespace NeurOS

open Foundation

namespace Image

/-!
# Canonical files
-/

/-- The extent of an image, two numbers of the machine. -/
structure Extent where
  width : Nat
  height : Nat
  width_lt : width < 2 ^ 64
  height_lt : height < 2 ^ 64

/-- A row and the vector of the rows have the sizes of allocations. -/
def Extent.Allocates (extent : Extent) : Prop :=
  extent.width * pixelSize < 2 ^ 63 ∧ extent.height * vecSize < 2 ^ 63

instance (extent : Extent) : Decidable extent.Allocates :=
  inferInstanceAs (Decidable (_ ∧ _))

def dimensions (extent : Extent) : String :=
  toString extent.width ++ " " ++ toString extent.height

def pbmHeader (extent : Extent) : String :=
  "P4\n" ++ dimensions extent

def graphicHeader (magic : String) (extent : Extent) : String :=
  magic ++ "\n" ++ dimensions extent ++ "\n255"

def canonicalFile (header : String) (raster : List UInt8) : List UInt8 :=
  Text.bytesOf header ++ 10 :: raster

def rasterOf (encode : α -> List UInt8) (extent : Extent) (cells : Nat -> Nat -> α) :
    List UInt8 :=
  (List.range extent.height).flatMap fun y =>
    (List.range extent.width).flatMap fun x => encode (cells x y)

def greyBytes (value : UInt8) : List UInt8 :=
  [value]

def pixelBytes (pixel : Pixel) : List UInt8 :=
  [pixel.red, pixel.green, pixel.blue]

def painted (extent : Extent) (pixels : Nat -> Nat -> Pixel) : Image where
  header := { width := extent.width, height := extent.height, x := 0, y := 0 }
  data := (List.range extent.height).map fun y =>
    (List.range extent.width).map fun x => pixels x y

/-!
# The header
-/

theorem newlines_append (first second : List UInt8) :
    newlines (first ++ second) =
      newlines first ++ (newlines second).map fun i => i + first.length := by
  have hshift : second.zipIdx first.length =
      second.zipIdx.map fun pair => (pair.1, first.length + pair.2) := List.zipIdx_eq_map_add
  unfold newlines
  rw [List.zipIdx_append, List.filter_append, List.map_append, Nat.zero_add, hshift,
    List.filter_map, List.map_map, List.map_map]
  congr 1
  apply List.map_congr_left
  intro pair _
  exact Nat.add_comm _ _

theorem newlines_length (image : List UInt8) : (newlines image).length = image.count 10 := by
  unfold newlines
  rw [List.length_map, ← List.countP_eq_length_filter, List.count_eq_countP]
  conv_rhs => rw [← List.zipIdx_map_fst 0 image]
  rw [List.countP_map]
  rfl

theorem newlines_behind (text raster : List UInt8) :
    (newlines (text ++ 10 :: raster))[text.count 10]? = some text.length := by
  rw [newlines_append, ← newlines_length, List.getElem?_append_right (Nat.le_refl _)]
  simp [newlines, List.zipIdx_cons]

theorem count_toString (n : Nat) : (Text.bytesOf (toString n)).count 10 = 0 := by
  rw [List.count_eq_zero]
  intro hmem
  have hbyte := Text.mem_bytesOf_toString hmem
  have hvalue : (10 : UInt8).toNat = 10 := rfl
  lia

theorem count_dimensions (extent : Extent) :
    (Text.bytesOf (dimensions extent)).count 10 = 0 := by
  unfold dimensions
  rw [Text.bytesOf_append, Text.bytesOf_append, List.count_append, List.count_append,
    count_toString, count_toString]
  rfl

theorem count_pbmHeader (extent : Extent) :
    (Text.bytesOf (pbmHeader extent)).count 10 = 1 := by
  unfold pbmHeader
  rw [Text.bytesOf_append, List.count_append, count_dimensions]
  rfl

theorem count_graphicHeader {magic : String} (extent : Extent)
    (hmagic : (Text.bytesOf magic).count 10 = 0) :
    (Text.bytesOf (graphicHeader magic extent)).count 10 = 2 := by
  unfold graphicHeader
  rw [Text.bytesOf_append, Text.bytesOf_append, Text.bytesOf_append, List.count_append,
    List.count_append, List.count_append, hmagic, count_dimensions]
  rfl

theorem parseHeader_fields {text magic : String} {extent : Extent} {more : List String}
    (h : Text.splitWhitespace text =
      magic :: toString extent.width :: toString extent.height :: more) :
    parseHeader text =
      .ok { width := extent.width, height := extent.height, x := 0, y := 0 } := by
  unfold parseHeader
  rw [h]
  simp only [List.getElem?_cons_succ, List.getElem?_cons_zero, Outcome.unwrap_some,
    Outcome.ok_bind, parseNumber, Text.fromStrRadix_toString extent.width_lt,
    Text.fromStrRadix_toString extent.height_lt]

theorem parseHeader_pbm (extent : Extent) : parseHeader (pbmHeader extent) =
    .ok { width := extent.width, height := extent.height, x := 0, y := 0 } := by
  have hwords : pbmHeader extent = "P4" ++ String.singleton '\n' ++
      (toString extent.width ++ String.singleton ' ' ++ toString extent.height) := rfl
  apply parseHeader_fields
  have hmagic : forall c, c ∈ "P4".toList -> Text.isWhitespace c = false := by
    simp [Text.isWhitespace]
  rw [hwords, Text.splitWhitespace_cons _ (by simp) hmagic rfl,
    Text.splitWhitespace_cons _ (Text.toString_ne_nil _)
      (fun c => Text.toString_not_whitespace) rfl,
    Text.splitWhitespace_word (Text.toString_ne_nil _) (fun c => Text.toString_not_whitespace)]

theorem parseHeader_graphic {magic : String} (extent : Extent) (hsome : magic.toList ≠ [])
    (hmagic : forall c, c ∈ magic.toList -> Text.isWhitespace c = false) :
    parseHeader (graphicHeader magic extent) =
      .ok { width := extent.width, height := extent.height, x := 0, y := 0 } := by
  have hwords : graphicHeader magic extent = magic ++ String.singleton '\n' ++
      (toString extent.width ++ String.singleton ' ' ++
        (toString extent.height ++ String.singleton '\n' ++ "255")) := by
    unfold graphicHeader dimensions
    simp only [String.append_assoc]
    rfl
  apply parseHeader_fields
  rw [hwords, Text.splitWhitespace_cons _ hsome hmagic rfl,
    Text.splitWhitespace_cons _ (Text.toString_ne_nil _)
      (fun c => Text.toString_not_whitespace) rfl,
    Text.splitWhitespace_cons _ (Text.toString_ne_nil _)
      (fun c => Text.toString_not_whitespace) rfl]

theorem new_canonical (profile : Profile) {initrd : Initrd} {base extension header : String}
    {extent : Extent} {raster : List UInt8}
    (hfile : initrd.getData (base ++ "." ++ extension) = .ok (canonicalFile header raster))
    (hsome : extension.toList ≠ []) (hextension : '.' ∉ extension.toList)
    (hlines : headerLines extension = .ok ((Text.bytesOf header).count 10))
    (hheader : parseHeader header =
      .ok { width := extent.width, height := extent.height, x := 0, y := 0 }) :
    new profile initrd (base ++ "." ++ extension) = (do
      let header : Header := { width := extent.width, height := extent.height, x := 0, y := 0 }
      let data ← decode profile extension header raster
      .ok { header, data }) := by
  have hlast : (Text.splitTerminator '.' (base ++ "." ++ extension)).getLast? = some extension :=
    Text.splitTerminator_last hsome hextension
  have hindex := newlines_behind (Text.bytesOf header) raster
  have htext : (canonicalFile header raster).take (Text.bytesOf header).length =
      Text.bytesOf header := List.take_left
  have hraster : (canonicalFile header raster).drop ((Text.bytesOf header).length + 1) =
      raster := by
    unfold canonicalFile
    rw [← List.drop_drop, List.drop_left]
    rfl
  unfold new
  rw [hfile, Outcome.ok_bind, hlast, Outcome.unwrap_some, Outcome.ok_bind, hlines,
    Outcome.ok_bind]
  unfold canonicalFile at *
  rw [hindex, Outcome.unwrap_some, Outcome.ok_bind, htext, Text.fromUtf8_bytesOf]
  dsimp only
  rw [Outcome.ok_bind, hheader, Outcome.ok_bind, hraster]

/-!
# Greys and colors
-/

section Raster

variable {profile : Profile} {extent : Extent} {x y : Nat}

theorem place_lt {width height : Nat} (hx : x < width) (hy : y < height) :
    y * width + x < height * width := by
  have hrow : (y + 1) * width <= height * width := Nat.mul_le_mul_right width hy
  rw [Nat.add_mul] at hrow
  lia

theorem decode_eq_if (extension : String) (raster : List UInt8) :
    decode profile extension
        { width := extent.width, height := extent.height, x := 0, y := 0 } raster =
      if extent.Allocates then
        (List.range extent.height).mapM fun y =>
          (List.range extent.width).mapM fun x =>
            pixelAt profile extension extent.width raster x y
      else
        .error .capacityOverflow := by
  unfold decode
  by_cases hwidth : extent.width * pixelSize < 2 ^ 63
  · rw [Outcome.capacity_of_lt hwidth, Outcome.ok_bind]
    by_cases hheight : extent.height * vecSize < 2 ^ 63
    · rw [Outcome.capacity_of_lt hheight, Outcome.ok_bind, if_pos ⟨hwidth, hheight⟩]
    · rw [Outcome.capacity_of_le (Nat.le_of_not_lt hheight), if_neg fun h => hheight h.2]
      rfl
  · rw [Outcome.capacity_of_le (Nat.le_of_not_lt hwidth), if_neg fun h => hwidth h.1]
    rfl

theorem decode_eq {extension : String} {raster : List UInt8} {pixels : Nat -> Nat -> Pixel}
    (h : forall y, y < extent.height -> forall x, x < extent.width ->
      pixelAt profile extension extent.width raster x y = .ok (pixels x y)) :
    decode profile extension
        { width := extent.width, height := extent.height, x := 0, y := 0 } raster =
      if extent.Allocates then .ok (painted extent pixels).data
      else .error .capacityOverflow := by
  rw [decode_eq_if]
  congr 1
  apply Outcome.mapM_ok_map
  intro y hy
  apply Outcome.mapM_ok_map
  intro x hx
  exact h y (List.mem_range.mp hy) x (List.mem_range.mp hx)

theorem new_of_cells (profile : Profile) {initrd : Initrd} {base extension header : String}
    {raster : List UInt8} {pixels : Nat -> Nat -> Pixel}
    (hfile : initrd.getData (base ++ "." ++ extension) = .ok (canonicalFile header raster))
    (hsome : extension.toList ≠ []) (hextension : '.' ∉ extension.toList)
    (hlines : headerLines extension = .ok ((Text.bytesOf header).count 10))
    (hheader : parseHeader header =
      .ok { width := extent.width, height := extent.height, x := 0, y := 0 })
    (hcells : forall y, y < extent.height -> forall x, x < extent.width ->
      pixelAt profile extension extent.width raster x y = .ok (pixels x y)) :
    new profile initrd (base ++ "." ++ extension) =
      if extent.Allocates then .ok (painted extent pixels) else .error .capacityOverflow := by
  rw [new_canonical profile hfile hsome hextension hlines hheader]
  simp only [decode_eq hcells]
  by_cases hallocates : extent.Allocates
  · rw [if_pos hallocates, if_pos hallocates]
    rfl
  · rw [if_neg hallocates, if_neg hallocates]
    rfl

section Cells

variable {encode : α -> List UInt8} {size : Nat}

theorem row_length (hsize : forall a, (encode a).length = size) (cells : Nat -> Nat -> α)
    (y : Nat) :
    ((List.range extent.width).flatMap fun x => encode (cells x y)).length =
      extent.width * size := by
  rw [length_flatMap_chunks (fun x => hsize (cells x y)), List.length_range]

theorem rasterOf_length (hsize : forall a, (encode a).length = size)
    (cells : Nat -> Nat -> α) :
    (rasterOf encode extent cells).length = extent.height * extent.width * size := by
  unfold rasterOf
  rw [length_flatMap_chunks (row_length hsize cells), List.length_range, Nat.mul_assoc]

theorem rasterOf_getElem? (hsize : forall a, (encode a).length = size)
    (cells : Nat -> Nat -> α) (hx : x < extent.width) (hy : y < extent.height) {color : Nat}
    (hcolor : color < size) :
    (rasterOf encode extent cells)[(y * extent.width + x) * size + color]? =
      (encode (cells x y))[color]? := by
  have hplace : (y * extent.width + x) * size + color =
      y * (extent.width * size) + (x * size + color) := by
    rw [Nat.add_mul, Nat.mul_assoc, Nat.add_assoc]
  have hinside : x * size + color < extent.width * size := place_lt hcolor hx
  unfold rasterOf
  rw [hplace, getElem?_flatMap_chunks (row_length hsize cells) _ y hinside,
    List.getElem?_range hy, Option.bind_some,
    getElem?_flatMap_chunks (fun x => hsize (cells x y)) _ x hcolor, List.getElem?_range hx,
    Option.bind_some]

end Cells

theorem greyBytes_length (value : UInt8) : (greyBytes value).length = 1 := rfl

theorem pixelBytes_length (pixel : Pixel) : (pixelBytes pixel).length = 3 := rfl

theorem pgmPixel_eq (greys : Nat -> Nat -> UInt8)
    (hfits : (rasterOf greyBytes extent greys).length < 2 ^ 64)
    (hx : x < extent.width) (hy : y < extent.height) :
    pgmPixel profile extent.width (rasterOf greyBytes extent greys) x y =
      .ok (grey (greys x y)) := by
  have hplace := place_lt hx hy
  have hget := rasterOf_getElem? greyBytes_length greys hx hy Nat.zero_lt_one
  rw [rasterOf_length greyBytes_length] at hfits
  rw [Nat.mul_one, Nat.add_zero] at hget
  unfold pgmPixel
  rw [profile.mul_of_lt (by lia), Outcome.ok_bind, profile.add_of_lt (by lia), Outcome.ok_bind,
    Outcome.index_of_getElem? hget]
  rfl

theorem ppmByte_eq (pixels : Nat -> Nat -> Pixel)
    (hfits : (rasterOf pixelBytes extent pixels).length < 2 ^ 64)
    (hx : x < extent.width) (hy : y < extent.height) {color : Nat} {value : UInt8}
    (hvalue : (pixelBytes (pixels x y))[color]? = some value) :
    ppmByte profile extent.width (rasterOf pixelBytes extent pixels) x y color = .ok value := by
  have hcolor : color < 3 := (List.getElem?_eq_some_iff.mp hvalue).1
  have hplace := place_lt hx hy
  have hget := rasterOf_getElem? pixelBytes_length pixels hx hy hcolor
  have hsum : y * extent.width * 3 + (3 * x + color) =
      (y * extent.width + x) * 3 + color := by
    lia
  rw [rasterOf_length pixelBytes_length] at hfits
  unfold ppmByte
  rw [profile.mul_of_lt (by lia), Outcome.ok_bind, profile.mul_of_lt (by lia), Outcome.ok_bind,
    profile.mul_of_lt (by lia), Outcome.ok_bind, profile.add_of_lt (by lia), Outcome.ok_bind,
    profile.add_of_lt (by lia), Outcome.ok_bind, hsum,
    Outcome.index_of_getElem? (hget.trans hvalue)]

theorem ppmPixel_eq (pixels : Nat -> Nat -> Pixel)
    (hfits : (rasterOf pixelBytes extent pixels).length < 2 ^ 64)
    (hx : x < extent.width) (hy : y < extent.height) :
    ppmPixel profile extent.width (rasterOf pixelBytes extent pixels) x y =
      .ok (pixels x y) := by
  have hred : ppmByte profile extent.width (rasterOf pixelBytes extent pixels) x y 0 = _ :=
    ppmByte_eq pixels hfits hx hy rfl
  have hgreen : ppmByte profile extent.width (rasterOf pixelBytes extent pixels) x y 1 = _ :=
    ppmByte_eq pixels hfits hx hy rfl
  have hblue : ppmByte profile extent.width (rasterOf pixelBytes extent pixels) x y 2 = _ :=
    ppmByte_eq pixels hfits hx hy rfl
  unfold ppmPixel
  rw [hred, hgreen, hblue]
  rfl

end Raster

section Files

variable (profile : Profile) {initrd : Initrd} {base : String} {extent : Extent}

theorem new_pgm {greys : Nat -> Nat -> UInt8}
    (hfits : (rasterOf greyBytes extent greys).length < 2 ^ 64)
    (hfile : initrd.getData (base ++ ".pgm") =
      .ok (canonicalFile (graphicHeader "P5" extent) (rasterOf greyBytes extent greys))) :
    new profile initrd (base ++ ".pgm") =
      if extent.Allocates then .ok (painted extent fun x y => grey (greys x y))
      else .error .capacityOverflow := by
  have hpath : base ++ ".pgm" = base ++ "." ++ "pgm" := by
    rw [String.append_assoc]
    rfl
  have hlines : headerLines "pgm" =
      .ok ((Text.bytesOf (graphicHeader "P5" extent)).count 10) := by
    rw [count_graphicHeader extent rfl]
    rfl
  have hheader := parseHeader_graphic extent (show "P5".toList ≠ [] by simp)
    (by simp [Text.isWhitespace])
  rw [hpath] at hfile ⊢
  exact new_of_cells profile hfile (by simp) (by simp) hlines hheader
    (fun y hy x hx => pgmPixel_eq greys hfits hx hy)

theorem new_ppm {pixels : Nat -> Nat -> Pixel}
    (hfits : (rasterOf pixelBytes extent pixels).length < 2 ^ 64)
    (hfile : initrd.getData (base ++ ".ppm") =
      .ok (canonicalFile (graphicHeader "P6" extent) (rasterOf pixelBytes extent pixels))) :
    new profile initrd (base ++ ".ppm") =
      if extent.Allocates then .ok (painted extent pixels) else .error .capacityOverflow := by
  have hpath : base ++ ".ppm" = base ++ "." ++ "ppm" := by
    rw [String.append_assoc]
    rfl
  have hlines : headerLines "ppm" =
      .ok ((Text.bytesOf (graphicHeader "P6" extent)).count 10) := by
    rw [count_graphicHeader extent rfl]
    rfl
  have hheader := parseHeader_graphic extent (show "P6".toList ≠ [] by simp)
    (by simp [Text.isWhitespace])
  rw [hpath] at hfile ⊢
  exact new_of_cells profile hfile (by simp) (by simp) hlines hheader
    (fun y hy x hx => ppmPixel_eq pixels hfits hx hy)

end Files

/-- Files of greys and of colors are decoded to their pixels, unless the vectors of the
pixels are larger than any allocation. -/
theorem new_paints (profile : Profile) (initrd : Initrd) (base : String) (extent : Extent) :
    (forall greys : Nat -> Nat -> UInt8,
      (rasterOf greyBytes extent greys).length < 2 ^ 64 ->
      initrd.getData (base ++ ".pgm") =
        .ok (canonicalFile (graphicHeader "P5" extent) (rasterOf greyBytes extent greys)) ->
      new profile initrd (base ++ ".pgm") =
        if extent.Allocates then .ok (painted extent fun x y => grey (greys x y))
        else .error .capacityOverflow) ∧
    (forall pixels : Nat -> Nat -> Pixel,
      (rasterOf pixelBytes extent pixels).length < 2 ^ 64 ->
      initrd.getData (base ++ ".ppm") =
        .ok (canonicalFile (graphicHeader "P6" extent) (rasterOf pixelBytes extent pixels)) ->
      new profile initrd (base ++ ".ppm") =
        if extent.Allocates then .ok (painted extent pixels)
        else .error .capacityOverflow) := by
  constructor
  · intro greys hfits hfile
    exact new_pgm profile hfits hfile
  · intro pixels hfits hfile
    exact new_ppm profile hfits hfile

def holding (path : String) (data : List UInt8) : Initrd where
  files :=
    [{ header :=
        { name := path, mode := 644, userId := 0, groupId := 0, size := data.length,
          mtime := 0, checksum := "", flag := 0, linked := "", indicator := "ustar",
          version := "00", username := "root", group := "root", major := 0, minor := 0,
          namePrefix := "" }
       data := data }]

theorem holding_getData (path : String) (data : List UInt8) :
    (holding path data).getData path = .ok data := by
  simp [holding, Initrd.getData]

def wide : Extent where
  width := 9
  height := 2
  width_lt := by lia
  height_lt := by lia

def point : Extent where
  width := 1
  height := 1
  width_lt := by simp
  height_lt := by simp

theorem wide_allocates : wide.Allocates := by
  constructor <;> simp [wide, pixelSize, vecSize]

theorem point_allocates : point.Allocates := by
  constructor <;> simp [point, pixelSize, vecSize]

def newlinePixels (x y : Nat) : Pixel :=
  { red := 10, green := 32, blue := (x + y).toUInt8 }

theorem new_paints_sample :
    new .dev (holding "logo.pgm" (canonicalFile (graphicHeader "P5" wide)
        (rasterOf greyBytes wide fun _ _ => 10))) "logo.pgm" =
      .ok (painted wide fun _ _ => grey 10) ∧
    new .dev (holding "logo.ppm" (canonicalFile (graphicHeader "P6" wide)
        (rasterOf pixelBytes wide newlinePixels))) "logo.ppm" =
      .ok (painted wide newlinePixels) := by
  have hgreys : (rasterOf greyBytes wide fun _ _ => 10).length < 2 ^ 64 := by
    rw [rasterOf_length greyBytes_length]
    simp [wide]
  have hpixels : (rasterOf pixelBytes wide newlinePixels).length < 2 ^ 64 := by
    rw [rasterOf_length pixelBytes_length]
    simp [wide]
  have hpgm := (new_paints .dev _ "logo" wide).1 _ hgreys (holding_getData _ _)
  have hppm := (new_paints .dev _ "logo" wide).2 _ hpixels (holding_getData _ _)
  rw [if_pos wide_allocates] at hpgm hppm
  exact ⟨hpgm, hppm⟩

def rowless : Extent where
  width := 0
  height := 2 ^ 64 - 1
  width_lt := by simp
  height_lt := by simp

theorem rowless_not_allocates : Not rowless.Allocates := by
  intro h
  have hrows : (2 ^ 64 - 1) * 24 < 2 ^ 63 := h.2
  lia

/-- The header of an image without pixels can ask for more rows than there is memory. -/
theorem rowless_overflows :
    Not (forall (profile : Profile) (initrd : Initrd) (base : String) (extent : Extent)
      (greys : Nat -> Nat -> UInt8), (rasterOf greyBytes extent greys).length < 2 ^ 64 ->
      initrd.getData (base ++ ".pgm") =
        .ok (canonicalFile (graphicHeader "P5" extent) (rasterOf greyBytes extent greys)) ->
      new profile initrd (base ++ ".pgm") =
        .ok (painted extent fun x y => grey (greys x y))) := by
  intro h
  have hfits : (rasterOf greyBytes rowless fun _ _ => 0).length < 2 ^ 64 := by
    rw [rasterOf_length greyBytes_length]
    simp [rowless]
  have hok := h .dev _ "logo" rowless _ hfits (holding_getData _ _)
  rw [new_pgm .dev hfits (holding_getData _ _), if_neg rowless_not_allocates] at hok
  cases hok

/-!
# Bitmaps
-/

def bitAt (raster : List UInt8) (stride x y : Nat) : Bool :=
  (raster.getD (y * stride + x / 8) 0).toNat.testBit (7 - x % 8)

def shade (bit : Bool) : Pixel :=
  grey (if bit then 0x00 else 0xFF)

def Extent.stride (extent : Extent) : Nat :=
  (extent.width + 7) / 8

/-- Rows of whole bytes, the first pixel of a byte in its highest bit.  The bits behind the
width fill the last byte of a row. -/
structure Packed (bitmap : Nat -> Nat -> Bool) (extent : Extent) (raster : List UInt8) :
    Prop where
  length : raster.length = extent.height * extent.stride
  bits : forall y, y < extent.height -> forall x, x < 8 * extent.stride ->
    bitAt raster extent.stride x y = bitmap x y

/-- The bit that stands 8 * y bits ahead of a pixel in row y, among the bits of all rows, is
also the bit of the pixel. -/
def Undisplaced (bitmap : Nat -> Nat -> Bool) (extent : Extent) : Prop :=
  forall y, y < extent.height -> forall x, x < extent.width ->
    bitmap ((8 * extent.stride * y + x - 8 * y) % (8 * extent.stride))
      ((8 * extent.stride * y + x - 8 * y) / (8 * extent.stride)) = bitmap x y

section Bitmap

variable {profile : Profile} {extent : Extent} {raster : List UInt8} {x y : Nat}

theorem masks_getElem? : forall i, i < 8 -> masks[i]? = some (2 ^ (7 - i)).toUInt8 := by
  decide

theorem and_mask_iff (byte : UInt8) {i : Nat} (h : i < 8) :
    byte &&& (2 ^ i).toUInt8 = 0 <-> byte.toNat.testBit i = false := by
  have hpow : 2 ^ i < 256 := Nat.pow_lt_pow_right (by lia) h
  have hpos : 0 ≠ 2 ^ i := Nat.ne_of_lt (Nat.two_pow_pos i)
  rw [← UInt8.toNat_inj, UInt8.toNat_and, Nat.toUInt8_eq, UInt8.toNat_ofNat',
    Nat.mod_eq_of_lt hpow, Nat.and_two_pow]
  cases byte.toNat.testBit i with
  | true => simp
  | false => simp

theorem displaced_lt (hx : x < extent.width) (hy : y < extent.height) :
    y * (extent.width / 8) + x / 8 < extent.height * extent.stride := by
  unfold Extent.stride
  have hrow : y * (extent.width / 8) <= y * ((extent.width + 7) / 8) :=
    Nat.mul_le_mul_left y (by lia)
  have hplace : y * ((extent.width + 7) / 8) + x / 8 <
      extent.height * ((extent.width + 7) / 8) := place_lt (by lia) hy
  lia

theorem pbmPixel_eq (hlength : raster.length = extent.height * extent.stride)
    (hfits : raster.length < 2 ^ 64) (hx : x < extent.width) (hy : y < extent.height) :
    pbmPixel profile extent.width raster x y =
      .ok (shade (bitAt raster (extent.width / 8) x y)) := by
  have hplace := displaced_lt hx hy
  rw [← hlength] at hplace
  have hget := List.getElem?_eq_getElem hplace
  have hbit : bitAt raster (extent.width / 8) x y =
      (raster[y * (extent.width / 8) + x / 8]).toNat.testBit (7 - x % 8) := by
    unfold bitAt
    rw [List.getD_eq_getElem _ _ hplace]
  unfold pbmPixel
  rw [profile.mul_of_lt (by lia), Outcome.ok_bind, profile.add_of_lt (by lia), Outcome.ok_bind,
    Outcome.index_of_getElem? hget, Outcome.ok_bind,
    Outcome.index_of_getElem? (masks_getElem? (x % 8) (by lia)), Outcome.ok_bind, hbit]
  simp only [and_mask_iff _ (show 7 - x % 8 < 8 by lia)]
  cases (raster[y * (extent.width / 8) + x / 8]).toNat.testBit (7 - x % 8) with
  | true => rfl
  | false => rfl

theorem bitAt_place {stride : Nat} (place : Nat) :
    bitAt raster stride (place % (8 * stride)) (place / (8 * stride)) =
      (raster.getD (place / 8) 0).toNat.testBit (7 - place % 8) := by
  unfold bitAt
  rw [Nat.mod_mul_right_div_self, ← Nat.div_div_eq_div_mul, Nat.div_add_mod',
    Nat.mod_mul_right_mod]

theorem bits_aligned {bitmap : Nat -> Nat -> Bool} (hpacked : Packed bitmap extent raster)
    (haligned : extent.width % 8 = 0) (hx : x < extent.width) (hy : y < extent.height) :
    bitAt raster (extent.width / 8) x y = bitmap x y := by
  have hstride : extent.stride = extent.width / 8 := by
    unfold Extent.stride
    lia
  rw [← hstride]
  exact hpacked.bits y hy x (by lia)

/-- A row that does not fill its bytes is one byte longer than the rows of the decoder. -/
theorem bits_displaced {bitmap : Nat -> Nat -> Bool} (hpacked : Packed bitmap extent raster)
    (haligned : extent.width % 8 ≠ 0) (hx : x < extent.width) (hy : y < extent.height) :
    bitAt raster (extent.width / 8) x y =
      bitmap ((8 * extent.stride * y + x - 8 * y) % (8 * extent.stride))
        ((8 * extent.stride * y + x - 8 * y) / (8 * extent.stride)) := by
  have hstride : extent.stride = extent.width / 8 + 1 := by
    unfold Extent.stride
    lia
  have hrows : 8 * extent.stride * y = 8 * (y * (extent.width / 8)) + 8 * y := by
    rw [hstride, Nat.mul_assoc, Nat.add_mul, Nat.one_mul, Nat.mul_add,
      Nat.mul_comm (extent.width / 8)]
  have hinside : y * (extent.width / 8) + x / 8 < extent.height * extent.stride :=
    displaced_lt hx hy
  have hplace : 8 * extent.stride * y + x - 8 * y =
      8 * (y * (extent.width / 8) + x / 8) + x % 8 := by lia
  rw [hplace]
  have hrow : (8 * (y * (extent.width / 8) + x / 8) + x % 8) / (8 * extent.stride) <
      extent.height := by
    apply Nat.div_lt_of_lt_mul
    rw [Nat.mul_assoc, Nat.mul_comm extent.stride]
    lia
  rw [← hpacked.bits _ hrow _ (Nat.mod_lt _ (by lia)), bitAt_place]
  have hbyte : (8 * (y * (extent.width / 8) + x / 8) + x % 8) / 8 =
      y * (extent.width / 8) + x / 8 := by lia
  have hbit : (8 * (y * (extent.width / 8) + x / 8) + x % 8) % 8 = x % 8 := by lia
  rw [hbyte, hbit]
  rfl

theorem shade_injective {first second : Bool} (h : shade first = shade second) :
    first = second := by
  cases first <;> cases second <;> first | rfl | cases h

theorem painted_inj {pixels others : Nat -> Nat -> Pixel}
    (h : painted extent pixels = painted extent others) :
    forall y, y < extent.height -> forall x, x < extent.width -> pixels x y = others x y := by
  intro y hy x hx
  have hdata : (painted extent pixels).data[y]? = (painted extent others).data[y]? := by rw [h]
  have hrow : (List.range extent.width).map (fun x => pixels x y) =
      (List.range extent.width).map fun x => others x y := by
    simpa [painted, hy] using hdata
  exact List.map_inj_left.mp hrow x (List.mem_range.mpr hx)

theorem painted_congr {pixels others : Nat -> Nat -> Pixel}
    (h : forall y, y < extent.height -> forall x, x < extent.width -> pixels x y = others x y) :
    painted extent pixels = painted extent others := by
  unfold painted
  congr 1
  apply List.map_congr_left
  intro y hy
  apply List.map_congr_left
  intro x hx
  exact h y (List.mem_range.mp hy) x (List.mem_range.mp hx)

theorem new_pbm {initrd : Initrd} (base : String)
    (hlength : raster.length = extent.height * extent.stride)
    (hfits : raster.length < 2 ^ 64)
    (hfile : initrd.getData (base ++ ".pbm") = .ok (canonicalFile (pbmHeader extent) raster)) :
    new profile initrd (base ++ ".pbm") =
      if extent.Allocates then
        .ok (painted extent fun x y => shade (bitAt raster (extent.width / 8) x y))
      else
        .error .capacityOverflow := by
  have hpath : base ++ ".pbm" = base ++ "." ++ "pbm" := by
    rw [String.append_assoc]
    rfl
  have hlines : headerLines "pbm" = .ok ((Text.bytesOf (pbmHeader extent)).count 10) := by
    rw [count_pbmHeader]
    rfl
  rw [hpath] at hfile ⊢
  exact new_of_cells profile hfile (by simp) (by simp) hlines (parseHeader_pbm extent)
    (fun y hy x hx => pbmPixel_eq hlength hfits hx hy)

end Bitmap

/-- A bitmap is decoded to its bits if and only if its vectors can be allocated and its rows
fill their bytes, or no pixel differs from the bit that the shorter rows take for it. -/
theorem new_pbm_iff (profile : Profile) {initrd : Initrd} (base : String) {extent : Extent}
    {raster : List UInt8} {bitmap : Nat -> Nat -> Bool} (hpacked : Packed bitmap extent raster)
    (hfits : raster.length < 2 ^ 64)
    (hfile : initrd.getData (base ++ ".pbm") = .ok (canonicalFile (pbmHeader extent) raster)) :
    new profile initrd (base ++ ".pbm") = .ok (painted extent fun x y => shade (bitmap x y)) <->
      extent.Allocates ∧ (extent.width % 8 = 0 ∨ Undisplaced bitmap extent) := by
  rw [new_pbm base hpacked.length hfits hfile]
  constructor
  · intro h
    by_cases hallocates : extent.Allocates
    · rw [if_pos hallocates] at h
      refine ⟨hallocates, ?_⟩
      by_cases haligned : extent.width % 8 = 0
      · exact Or.inl haligned
      · right
        intro y hy x hx
        rw [← bits_displaced hpacked haligned hx hy]
        exact shade_injective (painted_inj (Except.ok.inj h) y hy x hx)
    · rw [if_neg hallocates] at h
      cases h
  · rintro ⟨hallocates, haligned⟩
    rw [if_pos hallocates]
    congr 1
    apply painted_congr
    intro y hy x hx
    by_cases hwidth : extent.width % 8 = 0
    · rw [bits_aligned hpacked hwidth hx hy]
    · rw [bits_displaced hpacked hwidth hx hy]
      rcases haligned with haligned | hundisplaced
      · exact absurd haligned hwidth
      · rw [hundisplaced y hy x hx]

def twoRows : List UInt8 := [0xFF, 0x80, 0x00, 0x00]

def firstRow (x y : Nat) : Bool :=
  x < 9 ∧ y = 0

theorem twoRows_packed : Packed firstRow wide twoRows where
  length := rfl
  bits := by
    intro y hy x hx
    have hall : forall y, y < 2 -> forall x, x < 16 -> bitAt twoRows 2 x y = firstRow x y := by
      decide
    exact hall y hy x hx

theorem new_pbm_iff_sample :
    new .dev (holding "logo.pbm" (canonicalFile (pbmHeader wide) twoRows)) "logo.pbm" =
        .ok (painted wide fun x y => shade (firstRow x y)) <->
      wide.Allocates ∧ (wide.width % 8 = 0 ∨ Undisplaced firstRow wide) :=
  new_pbm_iff .dev "logo" twoRows_packed (by simp [twoRows]) (holding_getData "logo.pbm" _)

/-- The second row of a bitmap nine pixels wide starts in the padding of the first. -/
theorem second_row_displaced :
    Packed firstRow wide twoRows ∧
      (exists image, new .dev (holding "logo.pbm" (canonicalFile (pbmHeader wide) twoRows))
          "logo.pbm" = .ok image ∧
        image ≠ painted wide fun x y => shade (firstRow x y)) := by
  have hlength : twoRows.length = wide.height * wide.stride := rfl
  have hnew : new .dev (holding "logo.pbm" (canonicalFile (pbmHeader wide) twoRows))
      "logo.pbm" = _ :=
    new_pbm "logo" hlength (by simp [twoRows]) (holding_getData "logo.pbm" _)
  rw [if_pos wide_allocates] at hnew
  refine ⟨twoRows_packed, _, hnew, ?_⟩
  intro h
  have hpixel := painted_inj h 1 (by simp [wide]) 0 (by simp [wide])
  revert hpixel
  decide

end Image

end NeurOS
