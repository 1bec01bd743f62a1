import NeurOS.Foundation.Bytes
import NeurOS.Foundation.Loop
import NeurOS.Foundation.Text
import NeurOS.Logger

/-!
# The initial ramdisk

The boot loader leaves a tape archive in memory.  The walk over it starts at the
address of the first module, reads one header at a time and stops at the first
block of zeros.
-/

namespace NeurOS

open Foundation

def blockSize : Nat := 512

def eofBlock : List UInt8 := List.replicate blockSize 0

namespace Initrd

structure Header where
  name : String
  mode : Nat
  userId : Nat
  groupId : Nat
  size : Nat
  mtime : Nat
  checksum : String
  flag : Nat
  linked : String
  indicator : String
  version : String
  username : String
  group : String
  major : Nat
  minor : Nat
  namePrefix : String
  deriving DecidableEq, Repr

structure File where
  header : Header
  data : List UInt8
  deriving DecidableEq, Repr

/-!
# Reading memory

The memory is read through a parameter, so that the reads themselves can be followed.
-/

def wrappingAdd (address count : Nat) : Nat :=
  (address + count) % 2 ^ 64

theorem wrappingAdd_of_lt {address count : Nat} (h : address + count < 2 ^ 64) :
    wrappingAdd address count = address + count :=
  Nat.mod_eq_of_lt h

structure Walk where
  address : Nat
  files : List File
  logger : Logger

def divCeil (a b : Nat) : Nat :=
  if 0 < a % b then a / b + 1 else a / b

section Reading

variable {m : Type -> Type} [Monad m] [MonadLiftT Outcome m]
variable (read : Nat -> Nat -> m (List UInt8))

def parseSliceWith (address length : Nat) : m String := do
  let slice ← read address length
  match Text.fromUtf8 slice with
  | none => liftM (.error .unwrapErr : Outcome String)
  | some s => pure (Text.trimEndMatches '\x00' s)

def parseStringWith (address length : Nat) : m String :=
  parseSliceWith read address length

def parseIntegerWith (address length : Nat) : m Nat := do
  let slice ← parseSliceWith read address length
  pure ((Text.fromStrRadix 32 10 slice).getD 0)

def parseOctalWith (address length : Nat) : m Nat := do
  let slice ← parseSliceWith read address length
  match Text.fromStrRadix 32 8 slice with
  | none => liftM (.error .unwrapErr : Outcome Nat)
  | some value => pure value

def parseBlockWith (address length : Nat) : m (List UInt8) :=
  read address length

def parseHeaderWith (address : Nat) : m Header := do
  let name ← parseStringWith read address 100
  let mode ← parseIntegerWith read (wrappingAdd address 100) 8
  let userId ← parseOctalWith read (wrappingAdd address 108) 8
  let groupId ← parseOctalWith read (wrappingAdd address 116) 8
  let size ← parseOctalWith read (wrappingAdd address 124) 12
  let mtime ← parseOctalWith read (wrappingAdd address 136) 12
  let checksum ← parseStringWith read (wrappingAdd address 148) 8
  let flag ← parseIntegerWith read (wrappingAdd address 156) 1
  let linked ← parseStringWith read (wrappingAdd address 157) 100
  let indicator ← parseStringWith read (wrappingAdd address 257) 6
  let version ← parseStringWith read (wrappingAdd address 263) 2
  let username ← parseStringWith read (wrappingAdd address 265) 32
  let group ← parseStringWith read (wrappingAdd address 297) 32
  let major ← parseIntegerWith read (wrappingAdd address 329) 8
  let minor ← parseIntegerWith read (wrappingAdd address 337) 8
  let namePrefix ← parseStringWith read (wrappingAdd address 345) 155
  pure
    { name, mode, userId, groupId, size, mtime, checksum, flag, linked, indicator,
      version, username, group, major, minor, namePrefix }

def parseDataWith (address length : Nat) : m (List UInt8) :=
  read address length

/-- One pass through the body of the loop.  The text of a trace record is left to a parameter. -/
def bodyWith (display : File -> Outcome String) (walk : Walk) : m Walk := do
  let header ← parseHeaderWith read walk.address
  let next := wrappingAdd walk.address blockSize
  let (data, address) ←
    if header.size ≠ 0 then do
      let data ← parseDataWith read next header.size
      pure (data, wrappingAdd next (blockSize * divCeil header.size blockSize))
    else
      pure ([], next)
  let file := { header := header, data := data }
  let line ← (display file : Outcome String)
  pure
    { address := address
      files := walk.files ++ [file]
      logger := walk.logger.log .trace line }

def passWith (display : File -> Outcome String) (walk : Walk) : m (Option Walk) := do
  let block ← parseBlockWith read walk.address blockSize
  if block ≠ eofBlock then
    let walk ← bodyWith read display walk
    pure (some walk)
  else
    pure none

end Reading

/-!
# The memory that the boot loader leaves
-/

def readRam (ram : Ram) (address length : Nat) : Outcome (List UInt8) :=
  .ok (ram.read address length)

def parseSlice (ram : Ram) (address length : Nat) : Outcome String :=
  parseSliceWith (readRam ram) address length

def parseString (ram : Ram) (address length : Nat) : Outcome String :=
  parseStringWith (readRam ram) address length

def parseInteger (ram : Ram) (address length : Nat) : Outcome Nat :=
  parseIntegerWith (readRam ram) address length

def parseOctal (ram : Ram) (address length : Nat) : Outcome Nat :=
  parseOctalWith (readRam ram) address length

def parseBlock (ram : Ram) (address length : Nat) : List UInt8 :=
  ram.read address length

def parseHeader (ram : Ram) (address : Nat) : Outcome Header :=
  parseHeaderWith (readRam ram) address

def parseData (ram : Ram) (address length : Nat) : List UInt8 :=
  ram.read address length

def body (display : File -> Outcome String) (ram : Ram) (walk : Walk) : Outcome Walk :=
  bodyWith (readRam ram) display walk

theorem parseSlice_eq (ram : Ram) (address length : Nat) :
    parseSlice ram address length =
      match Text.fromUtf8 (ram.read address length) with
      | none => .error .unwrapErr
      | some s => .ok (Text.trimEndMatches '\x00' s) := rfl

theorem parseInteger_eq (ram : Ram) (address length : Nat) :
    parseInteger ram address length = (parseSlice ram address length >>= fun slice =>
      .ok ((Text.fromStrRadix 32 10 slice).getD 0)) := rfl

theorem parseOctal_eq (ram : Ram) (address length : Nat) :
    parseOctal ram address length = (parseSlice ram address length >>= fun slice =>
      match Text.fromStrRadix 32 8 slice with
      | none => .error .unwrapErr
      | some value => .ok value) := rfl

theorem parseHeader_eq (ram : Ram) (address : Nat) :
    parseHeader ram address = (do
      let name ← parseString ram address 100
      let mode ← parseInteger ram (wrappingAdd address 100) 8
      let userId ← parseOctal ram (wrappingAdd address 108) 8
      let groupId ← parseOctal ram (wrappingAdd address 116) 8
      let size ← parseOctal ram (wrappingAdd address 124) 12
      let mtime ← parseOctal ram (wrappingAdd address 136) 12
      let checksum ← parseString ram (wrappingAdd address 148) 8
      let flag ← parseInteger ram (wrappingAdd address 156) 1
      let linked ← parseString ram (wrappingAdd address 157) 100
      let indicator ← parseString ram (wrappingAdd address 257) 6
      let version ← parseString ram (wrappingAdd address 263) 2
      let username ← parseString ram (wrappingAdd address 265) 32
      let group ← parseString ram (wrappingAdd address 297) 32
      let major ← parseInteger ram (wrappingAdd address 329) 8
      let minor ← parseInteger ram (wrappingAdd address 337) 8
      let namePrefix ← parseString ram (wrappingAdd address 345) 155
      (.ok
        { name, mode, userId, groupId, size, mtime, checksum, flag, linked, indicator,
          version, username, group, major, minor, namePrefix } : Outcome Header)) := rfl

def fileAt (ram : Ram) (address : Nat) (header : Header) : File where
  header := header
  data := parseData ram (wrappingAdd address blockSize) header.size

theorem wrappingAdd_mod (address count : Nat) :
    wrappingAdd (wrappingAdd address count) 0 = wrappingAdd address count := by
  unfold wrappingAdd
  rw [Nat.add_zero, Nat.mod_mod]

theorem body_eq (display : File -> Outcome String) (ram : Ram) (walk : Walk) :
    body display ram walk = (do
      let header ← parseHeader ram walk.address
      let line ← display (fileAt ram walk.address header)
      .ok
        { address := wrappingAdd (wrappingAdd walk.address blockSize)
            (blockSize * divCeil header.size blockSize)
          files := walk.files ++ [fileAt ram walk.address header]
          logger := walk.logger.log .trace line }) := by
  unfold body bodyWith parseHeader
  cases parseHeaderWith (readRam ram) walk.address with
  | error e => rfl
  | ok header =>
      rw [Outcome.ok_bind, Outcome.ok_bind]
      cases Nat.eq_zero_or_pos header.size with
      | inl hzero =>
          have hceil : divCeil 0 blockSize = 0 := rfl
          have hdata : fileAt ram walk.address header = { header := header, data := [] } := by
            simp [fileAt, hzero, parseData, Ram.read]
          simp only [hzero, hdata, hceil, Nat.mul_zero, wrappingAdd_mod]
          rfl
      | inr hpos =>
          have hne : header.size ≠ 0 := Nat.ne_of_gt hpos
          simp only [hne, ne_eq, not_false_eq_true, if_true]
          rfl

/-!
# The walk over the archive
-/

/-- The loop runs up to the first block of zeros. -/
def walking (display : File -> Outcome String) (ram : Ram) : Loop Walk where
  guard walk := parseBlock ram walk.address blockSize ≠ eofBlock
  body := body display ram

def firstModule (response : Option (List Nat)) : Outcome Nat := do
  let modules ← Outcome.unwrap response
  match modules with
  | [] => .error .indexOutOfBounds
  | address :: _ => .ok address

end Initrd

structure Initrd where
  files : List Initrd.File
  deriving DecidableEq, Repr

namespace Initrd

def new (display : File -> Outcome String) (ram : Ram) (response : Option (List Nat))
    (fuel : Nat) (logger : Logger) : Option (Outcome (Initrd × Logger)) :=
  match firstModule response with
  | .error e => some (.error e)
  | .ok address =>
      ((walking display ram).run fuel
          { address := address, files := [], logger := logger }).map fun result =>
        result.map fun walk => ({ files := walk.files }, walk.logger)

def getFiles (self : Initrd) : List File :=
  self.files

def getData (self : Initrd) (path : String) : Outcome (List UInt8) := do
  let file ← Outcome.unwrap (self.files.find? fun x => x.header.name = path)
  .ok file.data

end Initrd

end NeurOS
