/-
**Deflated content.**

Deflated content is a string of bits, the low bits of each byte first. It is cut into blocks; a
block is a stretch of bytes as they are, or a string of symbols in a prefix code that is fixed or
stated at the block's start. A symbol is a byte, the end of the block, or a copy of earlier output.

`inflate?` gives the content back. Every symbol and every block takes at least one bit, so the
number of bits bounds the work.
-/

import ColumnCalc.Text.Utf8

namespace ColumnCalc.Archive

open Text (Bytes)

/-- Reading of bits from a place on; fails at the end of the data and on content that is none. -/
abbrev BitReader := ReaderT (Array UInt8) (StateT Nat Option)

namespace BitReader

/-- The next bit. -/
def bit : BitReader Nat := do
  let data ← read
  let place ← get
  match data[place / 8]? with
  | some byte =>
    set (place + 1)
    return (byte.toNat >>> (place % 8)) % 2
  | none => failure

/-- The number that the next bits write, the low ones first. -/
def bits : Nat → BitReader Nat
  | 0 => return 0
  | count + 1 => do
    let low ← bit
    return low + 2 * (← bits count)

/-- The rest of the byte that reading stands in is passed over. -/
def alignToByte : BitReader Unit :=
  modify fun place => (place + 7) / 8 * 8

end BitReader

open BitReader (bit bits)

/-- A prefix code: how many code words there are of each length from one on, and the symbols by
code word, the shorter words first. -/
structure PrefixCode where
  counts : List Nat
  symbols : Array Nat

namespace PrefixCode

/-- The code in which the symbols' words have these lengths; a symbol of length zero has none. -/
def ofLengths (lengths : List Nat) : PrefixCode :=
  let ofLength (length : Nat) : List Nat :=
    (lengths.zipIdx).filterMap fun (own, symbol) => if own = length then some symbol else none
  let groups := (List.range' 1 15).map ofLength
  ⟨groups.map List.length, groups.flatten.toArray⟩

/-- Reads a code word bit by bit. `word` is its value so far, `first` the first word of the length
that is tried and `index` the place of its symbol. -/
def readWord (symbols : Array Nat) (word first index : Nat) : List Nat → BitReader Nat
  | [] => failure
  | count :: counts => do
    let word := 2 * word + (← bit)
    let first := 2 * first
    if word < first + count then
      match symbols[index + (word - first)]? with
      | some symbol => return symbol
      | none => failure
    else readWord symbols word (first + count) (index + count) counts

/-- Reads the next symbol. -/
def symbol (code : PrefixCode) : BitReader Nat :=
  readWord code.symbols 0 0 0 code.counts

end PrefixCode

/-- What a group of symbols stands for: a least value and the number of bits to add. -/
def lengthGroups : Array (Nat × Nat) :=
  #[(3, 0), (4, 0), (5, 0), (6, 0), (7, 0), (8, 0), (9, 0), (10, 0), (11, 1), (13, 1), (15, 1),
    (17, 1), (19, 2), (23, 2), (27, 2), (31, 2), (35, 3), (43, 3), (51, 3), (59, 3), (67, 4),
    (83, 4), (99, 4), (115, 4), (131, 5), (163, 5), (195, 5), (227, 5), (258, 0)]

/-- The distances of copies, given like the lengths. -/
def distanceGroups : Array (Nat × Nat) :=
  #[(1, 0), (2, 0), (3, 0), (4, 0), (5, 1), (7, 1), (9, 2), (13, 2), (17, 3), (25, 3), (33, 4),
    (49, 4), (65, 5), (97, 5), (129, 6), (193, 6), (257, 7), (385, 7), (513, 8), (769, 8),
    (1025, 9), (1537, 9), (2049, 10), (3073, 10), (4097, 11), (6145, 11), (8193, 12), (12289, 12),
    (16385, 13), (24577, 13)]

/-- The value of a group's symbol and the bits behind it. -/
def groupValue (groups : Array (Nat × Nat)) (symbol : Nat) : BitReader Nat :=
  match groups[symbol]? with
  | some (least, extra) => return least + (← bits extra)
  | none => failure

/-- Copies so many bytes of the output from a distance back; a copy may run into itself. -/
def copyBack (distance : Nat) : Nat → Array UInt8 → Option (Array UInt8)
  | 0, output => some output
  | length + 1, output =>
    if distance ≤ output.size then
      match output[output.size - distance]? with
      | some byte => copyBack distance length (output.push byte)
      | none => none
    else none

/-- Reads symbols up to the end of a block. -/
def readSymbols (lengths distances : PrefixCode) :
    Nat → Array UInt8 → BitReader (Array UInt8)
  | 0, _ => failure
  | fuel + 1, output => do
    let symbol ← lengths.symbol
    if symbol < 256 then readSymbols lengths distances fuel (output.push (UInt8.ofNat symbol))
    else if symbol = 256 then return output
    else
      let length ← groupValue lengthGroups (symbol - 257)
      let distance ← groupValue distanceGroups (← distances.symbol)
      match copyBack distance length output with
      | some output => readSymbols lengths distances fuel output
      | none => failure

/-- Reads a stretch of bytes as they are, behind its length and that length's complement. -/
def readStored (output : Array UInt8) : BitReader (Array UInt8) := do
  BitReader.alignToByte
  let length ← bits 16
  let complement ← bits 16
  if length + complement = 0xFFFF then
    (List.range length).foldlM (fun output _ => do
      return output.push (UInt8.ofNat (← bits 8))) output
  else failure

/-- The lengths of the fixed code's words. -/
def fixedLengths : List Nat :=
  List.replicate 144 8 ++ List.replicate 112 9 ++ List.replicate 24 7 ++ List.replicate 8 8

/-- The order in which the lengths of the code for lengths are stated. -/
def statedOrder : List Nat :=
  [16, 17, 18, 0, 8, 7, 9, 6, 10, 5, 11, 4, 12, 3, 13, 2, 14, 1, 15]

/-- Reads so many code lengths, last first; three symbols stand for runs. -/
def readLengths (code : PrefixCode) (wanted : Nat) : Nat → List Nat → BitReader (List Nat)
  | 0, _ => failure
  | fuel + 1, lengths =>
    if wanted < lengths.length then failure
    else if lengths.length = wanted then return lengths.reverse
    else do
      let symbol ← code.symbol
      if symbol < 16 then readLengths code wanted fuel (symbol :: lengths)
      else if symbol = 16 then
        match lengths with
        | [] => failure
        | last :: _ =>
          let run := 3 + (← bits 2)
          readLengths code wanted fuel (List.replicate run last ++ lengths)
      else
        let run ← if symbol = 17 then (3 + ·) <$> bits 3 else (11 + ·) <$> bits 7
        readLengths code wanted fuel (List.replicate run 0 ++ lengths)

/-- Reads the codes that a block states. -/
def readCodes : BitReader (PrefixCode × PrefixCode) := do
  let lengthCount := 257 + (← bits 5)
  let distanceCount := 1 + (← bits 5)
  let stated ← (statedOrder.take (4 + (← bits 4))).mapM fun symbol => do
    return (symbol, ← bits 3)
  let code := PrefixCode.ofLengths ((List.range 19).map fun symbol =>
    (stated.lookup symbol).getD 0)
  let wanted := lengthCount + distanceCount
  let lengths ← readLengths code wanted (wanted + 1) []
  return (.ofLengths (lengths.take lengthCount), .ofLengths (lengths.drop lengthCount))

/-- Reads blocks up to the one that says it is the last. -/
def readBlocks : Nat → Array UInt8 → BitReader (Array UInt8)
  | 0, _ => failure
  | fuel + 1, output => do
    let isLast ← bit
    let output ← match ← bits 2 with
      | 0 => readStored output
      | 1 => readSymbols (.ofLengths fixedLengths) (.ofLengths (List.replicate 30 5)) fuel output
      | 2 => do
        let (lengths, distances) ← readCodes
        readSymbols lengths distances fuel output
      | _ => failure
    if isLast = 1 then return output else readBlocks fuel output

/-- The content of deflated bytes. -/
def inflate? (bytes : Bytes) : Option Bytes :=
  let data := bytes.toArray
  ((readBlocks (8 * data.size + 1) #[]).run data |>.run 0).map fun (output, _) => output.toList

end ColumnCalc.Archive
