import NeurOS.Initrd.Model

/-!
# Executables

The header of an executable file and its two tables, as they are read from a file
of the ramdisk.  The offset of a table entry is computed with sixteen bits before
it is widened.
-/

namespace NeurOS

open Foundation

namespace Elf

/-!
# Records
-/

def word (data : List UInt8) (start width : Nat) : Outcome Nat :=
  if start + width <= data.length then
    .ok (littleEndian (slice data start width))
  else
    .error .indexOutOfBounds

structure Header where
  magic : Nat
  fileClass : Nat
  data : Nat
  version : Nat
  osAbi : Nat
  abiVersion : Nat
  fileType : Nat
  machine : Nat
  execVersion : Nat
  entrypoint : Nat
  phOffset : Nat
  shOffset : Nat
  flags : Nat
  ehSize : Nat
  phSize : Nat
  phNumber : Nat
  shSize : Nat
  shNumber : Nat
  shIndex : Nat
  deriving DecidableEq, Repr

def Header.new (data : List UInt8) : Outcome Header := do
  .ok
    { magic := ← word data 0 4
      fileClass := ← word data 4 1
      data := ← word data 5 1
      version := ← word data 6 1
      osAbi := ← word data 7 1
      abiVersion := ← word data 8 1
      fileType := ← word data 16 2
      machine := ← word data 18 2
      execVersion := ← word data 20 4
      entrypoint := ← word data 24 8
      phOffset := ← word data 32 8
      shOffset := ← word data 40 8
      flags := ← word data 48 4
      ehSize := ← word data 52 2
      phSize := ← word data 54 2
      phNumber := ← word data 56 2
      shSize := ← word data 58 2
      shNumber := ← word data 60 2
      shIndex := ← word data 62 2 }

structure Program where
  segmentType : Nat
  flags : Nat
  offset : Nat
  virtualAddress : Nat
  physicalAddress : Nat
  fileSize : Nat
  memorySize : Nat
  alignment : Nat
  deriving DecidableEq, Repr

def Program.new (data : List UInt8) : Outcome Program := do
  .ok
    { segmentType := ← word data 0 4
      flags := ← word data 4 4
      offset := ← word data 8 8
      virtualAddress := ← word data 16 8
      physicalAddress := ← word data 24 8
      fileSize := ← word data 32 8
      memorySize := ← word data 40 8
      alignment := ← word data 48 8 }

structure Section where
  name : Nat
  headerType : Nat
  flags : Nat
  address : Nat
  offset : Nat
  size : Nat
  link : Nat
  info : Nat
  alignment : Nat
  entrySize : Nat
  deriving DecidableEq, Repr

def Section.new (data : List UInt8) : Outcome Section := do
  .ok
    { name := ← word data 0 4
      headerType := ← word data 4 4
      flags := ← word data 8 8
      address := ← word data 16 8
      offset := ← word data 24 8
      size := ← word data 32 8
      link := ← word data 40 4
      info := ← word data 44 4
      alignment := ← word data 48 8
      entrySize := ← word data 56 8 }

end Elf

structure Elf where
  header : Elf.Header
  programs : List Elf.Program
  sections : List Elf.Section
  deriving DecidableEq, Repr

namespace Elf

/-!
# Tables
-/

def sliceFrom (data : List UInt8) (start : Nat) : Outcome (List UInt8) :=
  if start <= data.length then
    .ok (data.drop start)
  else
    .error .indexOutOfBounds

/-- The offset of a table entry: a product of sixteen bits, then a sum of sixty-four. -/
def entryOffset (profile : Profile) (offset size index : Nat) : Outcome Nat := do
  let product ← profile.mul 16 index size
  profile.add 64 offset product

def readTable (profile : Profile) (new : List UInt8 -> Outcome α) (data : List UInt8)
    (offset size number : Nat) : Outcome (List α) :=
  (List.range number).mapM fun index => do
    let start ← entryOffset profile offset size index
    let slice ← sliceFrom data start
    new slice

def new (profile : Profile) (initrd : Initrd) (path : String) : Outcome Elf := do
  let data ← initrd.getData path
  let header ← Header.new data
  let programs ←
    readTable profile Program.new data header.phOffset header.phSize header.phNumber
  let sections ←
    readTable profile Section.new data header.shOffset header.shSize header.shNumber
  .ok { header, programs, sections }

/-!
# Display
-/

def hex (n : Nat) : String :=
  String.ofList (Nat.toDigits 16 n)

def Header.className (self : Header) : String :=
  match self.fileClass with
  | 1 => "ELF32"
  | 2 => "ELF64"
  | _ => "Unknown"

def Header.dataName (self : Header) : String :=
  match self.data with
  | 1 => "2's complement, little endian"
  | 2 => "2's complement, big endian"
  | _ => "Unknown"

def Header.versionName (self : Header) : String :=
  match self.version with
  | 1 => "1 (current)"
  | _ => "Unknown"

def Header.osAbiName (self : Header) : String :=
  match self.osAbi with
  | 0 => "UNIX - System V"
  | 1 => "UNIX - HP-UX"
  | 2 => "UNIX - NetBSD"
  | 3 => "UNIX - Linux"
  | 4 => "UNIX - GNU Hurd"
  | 6 => "UNIX - Solaris"
  | 7 => "UNIX - AIX"
  | 8 => "UNIX - IRIX"
  | 9 => "UNIX - FreeBSD"
  | 10 => "UNIX - TRU64"
  | 11 => "Novell - Modesto"
  | 12 => "UNIX - OpenBSD"
  | 13 => "VMS - OpenVMS"
  | 14 => "HP - Non-Stop Kernel"
  | 15 => "AROS"
  | 16 => "FenixOS"
  | 17 => "Nuxi CloudABI"
  | 18 => "Stratus Technologies OpenVOS"
  | _ => "Unknown"

def Header.typeName (self : Header) : String :=
  match self.fileType with
  | 0 => "NONE (None)"
  | 1 => "REL (Relocatable file)"
  | 2 => "EXEC (Executable file)"
  | 3 => "DYN (Position-Independent Executable file)"
  | 4 => "CORE (Core file)"
  | _ => "Unknown"

def Header.machineName (self : Header) : String :=
  match self.machine with
  | 0x3E => "Advanced Micro Devices X86-64"
  | _ => "Unknown"

def fmt (self : Elf) : String :=
  let header := self.header
  s!"ELF Header:\n" ++
  s!"  Magic: 0x{hex header.magic}\n" ++
  s!"  Class: {header.className}\n" ++
  s!"  Data: {header.dataName}\n" ++
  s!"  Version: {header.versionName}\n" ++
  s!"  OS/ABI: {header.osAbiName}\n" ++
  s!"  ABI Version: {header.abiVersion}\n" ++
  s!"  Type: {header.typeName}\n" ++
  s!"  Machine: {header.machineName}\n" ++
  s!"  Version: 0x{hex header.execVersion}\n" ++
  s!"  Entry point address: 0x{hex header.entrypoint}\n" ++
  s!"  Start of program headers: {header.phOffset} (bytes into file)\n" ++
  s!"  Start of section headers: {header.shOffset} (bytes into file)\n" ++
  s!"  Flags: 0x{hex header.flags}\n" ++
  s!"  Size of this header: {header.ehSize} (bytes)\n" ++
  s!"  Size of program headers: {header.phSize} (bytes)\n" ++
  s!"  Number of program headers: {header.phNumber}\n" ++
  s!"  Size of section headers: {header.shSize} (bytes)\n" ++
  s!"  Number of section headers: {header.shNumber}\n" ++
  s!"  Section header string table index: {header.shIndex}\n"

end Elf

end NeurOS
