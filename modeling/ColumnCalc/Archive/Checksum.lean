/-
**Checksums of parts.**

The checksum of a part is the cyclic redundancy check of 32 bits whose polynomial has the reflected
form `0xEDB88320`.
-/

import ColumnCalc.Text.Utf8

namespace ColumnCalc.Archive

open Text (Bytes)

/-- The remainder after one more bit. -/
def shiftRemainder (remainder : UInt32) : UInt32 :=
  if remainder &&& 1 = 1 then (remainder >>> 1) ^^^ 0xEDB88320 else remainder >>> 1

/-- The remainder after one more byte. -/
def addByte (remainder : UInt32) (byte : UInt8) : UInt32 :=
  Nat.repeat shiftRemainder 8 (remainder ^^^ byte.toUInt32)

/-- The checksum of a content. -/
def checksum (content : Bytes) : UInt32 :=
  content.foldl addByte 0xFFFFFFFF ^^^ 0xFFFFFFFF

end ColumnCalc.Archive
