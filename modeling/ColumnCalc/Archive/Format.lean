/-
**Archives as files.**

A file starts with the parts, each behind a header of its own. Behind them stands the directory, a
header per part with the place of the part, and at the end a record with the place of the directory.
`Archive.ofBytes?` reads such a file, `Archive.toBytes` writes one with the parts as they are.
-/

import ColumnCalc.Archive.Basic
import ColumnCalc.Archive.Checksum
import ColumnCalc.Archive.Deflate

namespace ColumnCalc.Archive

open Text (Bytes)

/-- A number in so many bytes, the low ones first. -/
def numberBytes : Nat → Nat → Bytes
  | 0, _ => []
  | width + 1, value => UInt8.ofNat value :: numberBytes width (value / 256)

/-- The number in so many bytes at an offset. -/
def numberAt? (file : Array UInt8) (offset width : Nat) : Option Nat :=
  let field := file.extract offset (offset + width)
  if field.size = width then some (field.foldr (fun byte value => byte.toNat + 256 * value) 0)
  else none

/-- The mark in front of a part. -/
def partMark : Nat := 0x04034B50

/-- The mark in front of a part's header in the directory. -/
def directoryMark : Nat := 0x02014B50

/-- The mark in front of the record at the end. -/
def endMark : Nat := 0x06054B50

/-- The last place below a bound where the record at the end may start. -/
def endRecord? (file : Array UInt8) : Nat → Option Nat
  | 0 => none
  | offset + 1 =>
    if numberAt? file offset 4 = some endMark then some offset else endRecord? file offset

/-- The content of a part as it is stored: as it is or deflated. -/
def unpack? (method : Nat) (packed : Bytes) : Option Bytes :=
  if method = 0 then some packed else if method = 8 then inflate? packed else none

/-- Reads the part whose header in the directory stands at an offset, and where the next header
is. `base` is where the archive starts within the file. -/
def readPart? (file : Array UInt8) (base offset : Nat) : Option (Part × Nat) := do
  guard (numberAt? file offset 4 = some directoryMark)
  let method ← numberAt? file (offset + 10) 2
  let sum ← numberAt? file (offset + 16) 4
  let packedSize ← numberAt? file (offset + 20) 4
  let nameSize ← numberAt? file (offset + 28) 2
  let extraSize ← numberAt? file (offset + 30) 2
  let commentSize ← numberAt? file (offset + 32) 2
  let partOffset := base + (← numberAt? file (offset + 42) 4)
  guard (numberAt? file partOffset 4 = some partMark)
  let start := partOffset + 30 + (← numberAt? file (partOffset + 26) 2)
    + (← numberAt? file (partOffset + 28) 2)
  let packed := file.extract start (start + packedSize)
  guard (packed.size = packedSize)
  let content ← unpack? method packed.toList
  guard ((checksum content).toNat = sum)
  let name := (file.extract (offset + 46) (offset + 46 + nameSize)).toList
  return (⟨name, content⟩, offset + 46 + nameSize + extraSize + commentSize)

/-- Reads so many parts from a place in the directory on. -/
def readParts? (file : Array UInt8) (base : Nat) : Nat → Nat → Option (List Part)
  | 0, _ => some []
  | count + 1, offset => do
    let (part, next) ← readPart? file base offset
    return part :: (← readParts? file base count next)

/-- The archive that a file holds. -/
def ofBytes? (bytes : Bytes) : Option Archive := do
  let file := bytes.toArray
  let offset ← endRecord? file (file.size - 21)
  let count ← numberAt? file (offset + 10) 2
  let size ← numberAt? file (offset + 12) 4
  let directory ← numberAt? file (offset + 16) 4
  guard (size + directory ≤ offset)
  return ⟨← readParts? file (offset - size - directory) count (offset - size)⟩

/-- What the headers of a part have in common, from the method on. -/
def partFields (part : Part) : Bytes :=
  numberBytes 2 0 ++ numberBytes 4 0 ++ numberBytes 4 (checksum part.content).toNat
    ++ numberBytes 4 part.content.length ++ numberBytes 4 part.content.length
    ++ numberBytes 2 part.name.length

/-- A part with its header. -/
def partBytes (part : Part) : Bytes :=
  numberBytes 4 partMark ++ numberBytes 2 20 ++ numberBytes 2 0 ++ partFields part
    ++ numberBytes 2 0 ++ part.name ++ part.content

/-- A part's header in the directory. -/
def directoryBytes (part : Part) (offset : Nat) : Bytes :=
  numberBytes 4 directoryMark ++ numberBytes 2 20 ++ numberBytes 2 20 ++ numberBytes 2 0
    ++ partFields part ++ numberBytes 12 0 ++ numberBytes 4 offset ++ part.name

/-- The headers of the directory for parts that start at an offset. -/
def directoryFrom (offset : Nat) : List Part → Bytes
  | [] => []
  | part :: rest =>
    directoryBytes part offset ++ directoryFrom (offset + (partBytes part).length) rest

/-- An archive's file, with the parts as they are. -/
def toBytes (archive : Archive) : Bytes :=
  let parts := archive.parts.flatMap partBytes
  let directory := directoryFrom 0 archive.parts
  let count := archive.parts.length
  parts ++ directory ++ numberBytes 4 endMark ++ numberBytes 4 0 ++ numberBytes 2 count
    ++ numberBytes 2 count ++ numberBytes 4 directory.length ++ numberBytes 4 parts.length
    ++ numberBytes 2 0

end ColumnCalc.Archive
