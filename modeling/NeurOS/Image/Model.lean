import NeurOS.Initrd.Model

/-!
# Images

A file of the ramdisk is decoded by the extension of its path.  The header ends
with a newline whose number depends on the format; the rest of the file is the
raster.
-/

namespace NeurOS

open Foundation

namespace Image

structure Header where
  width : Nat
  height : Nat
  x : Nat
  y : Nat
  deriving DecidableEq, Repr

structure Pixel where
  red : UInt8
  green : UInt8
  blue : UInt8
  deriving DecidableEq, Repr

namespace Pixel

def getRed (self : Pixel) : UInt8 :=
  self.red

def getGreen (self : Pixel) : UInt8 :=
  self.green

def getBlue (self : Pixel) : UInt8 :=
  self.blue

end Pixel

end Image

structure Image where
  header : Image.Header
  data : List (List Image.Pixel)
  deriving DecidableEq, Repr

namespace Image

def masks : List UInt8 := [128, 64, 32, 16, 8, 4, 2, 1]

def newlines (image : List UInt8) : List Nat :=
  (image.zipIdx.filter fun pair => pair.1 = 10).map Prod.snd

def headerLines (extension : String) : Outcome Nat :=
  if extension = "pbm" then
    .ok 1
  else if extension = "pgm" ∨ extension = "ppm" then
    .ok 2
  else
    .error (.raised "Unsupported image file type detected.")

def parseNumber (field : String) : Outcome Nat :=
  match Text.fromStrRadix 64 10 field with
  | none => .error .unwrapErr
  | some n => .ok n

def parseHeader (text : String) : Outcome Header := do
  let fields := Text.splitWhitespace text
  let width ← parseNumber (← Outcome.unwrap fields[1]?)
  let height ← parseNumber (← Outcome.unwrap fields[2]?)
  .ok { width, height, x := 0, y := 0 }

def grey (value : UInt8) : Pixel :=
  { red := value, green := value, blue := value }

def pbmPixel (profile : Profile) (width : Nat) (pixels : List UInt8) (x y : Nat) :
    Outcome Pixel := do
  let row ← profile.mul 64 y (width / 8)
  let pixel ← Outcome.index pixels (← profile.add 64 row (x / 8))
  let mask ← Outcome.index masks (x % 8)
  .ok (grey (if pixel &&& mask = 0 then 0xFF else 0x00))

def pgmPixel (profile : Profile) (width : Nat) (pixels : List UInt8) (x y : Nat) :
    Outcome Pixel := do
  let row ← profile.mul 64 y width
  let value ← Outcome.index pixels (← profile.add 64 row x)
  .ok (grey value)

def ppmByte (profile : Profile) (width : Nat) (pixels : List UInt8) (x y color : Nat) :
    Outcome UInt8 := do
  let row ← profile.mul 64 (← profile.mul 64 y width) 3
  let place ← profile.add 64 (← profile.mul 64 3 x) color
  Outcome.index pixels (← profile.add 64 row place)

def ppmPixel (profile : Profile) (width : Nat) (pixels : List UInt8) (x y : Nat) :
    Outcome Pixel := do
  let red ← ppmByte profile width pixels x y 0
  let green ← ppmByte profile width pixels x y 1
  let blue ← ppmByte profile width pixels x y 2
  .ok { red, green, blue }

def pixelAt (profile : Profile) (extension : String) (width : Nat) (pixels : List UInt8)
    (x y : Nat) : Outcome Pixel :=
  if extension = "pbm" then
    pbmPixel profile width pixels x y
  else if extension = "pgm" then
    pgmPixel profile width pixels x y
  else if extension = "ppm" then
    ppmPixel profile width pixels x y
  else
    .error (.raised "Unsupported image file type detected.")

def pixelSize : Nat := 3

/-- The bytes of a vector without its items: a pointer, a capacity and a length. -/
def vecSize : Nat := 24

/-- The loops assign every cell of the pixels once, row by row. -/
def decode (profile : Profile) (extension : String) (header : Header) (pixels : List UInt8) :
    Outcome (List (List Pixel)) := do
  Outcome.capacity header.width pixelSize
  Outcome.capacity header.height vecSize
  (List.range header.height).mapM fun y =>
    (List.range header.width).mapM fun x => pixelAt profile extension header.width pixels x y

def new (profile : Profile) (initrd : Initrd) (path : String) : Outcome Image := do
  let image ← initrd.getData path
  let extension ← Outcome.unwrap (Text.splitTerminator '.' path).getLast?
  let lines ← headerLines extension
  let index ← Outcome.unwrap (newlines image)[lines]?
  let text ←
    match Text.fromUtf8 (image.take index) with
    | none => .error .unwrapErr
    | some text => .ok text
  let header ← parseHeader text
  let pixels := image.drop (index + 1)
  let data ← decode profile extension header pixels
  .ok { header, data }

end Image

end NeurOS
