import Mathlib.Data.List.Basic

/-!
# Byte strings

The encodings that hash inputs are built from: big-endian words of a fixed width, UTF-8 text, and a
byte string behind its length.
-/

namespace NazoAuth.Lib

/-- The last `width` bytes of a number, most significant first. -/
def bigEndian : Nat → Nat → List UInt8
  | 0, _ => []
  | width + 1, n => UInt8.ofNat (n / 256 ^ width) :: bigEndian width n

def utf8 (s : String) : List UInt8 := s.toList.flatMap String.utf8EncodeChar

/-- A byte string behind its length, an eight-byte word. -/
def lengthPrefixed (bytes : List UInt8) : List UInt8 := bigEndian 8 bytes.length ++ bytes

end NazoAuth.Lib
