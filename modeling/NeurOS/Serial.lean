import NeurOS.Foundation.Traced
import NeurOS.Logger

/-!
# The serial port

What the port transmits for a text: one byte for each character, and a carriage
return ahead of each newline.
-/

namespace NeurOS

open Foundation

namespace Serial

/-- The conversion of a character to a byte keeps its low eight bits. -/
def writeChar (c : Char) : List UInt8 :=
  [c.val.toUInt8]

def writeStr (s : String) : List UInt8 :=
  s.toList.flatMap fun character =>
    if character = '\n' then
      writeChar '\r' ++ writeChar character
    else
      writeChar character

def write (s : String) : Traced UInt8 PUnit :=
  Traced.emits (writeStr s) ⟨⟩

def read (byte : UInt8) : Char :=
  Char.ofNat byte.toNat

end Serial

end NeurOS
