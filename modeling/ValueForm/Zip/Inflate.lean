import ValueForm.Zip.Huffman

/-!
# Inflating

Compressed data is a sequence of blocks. A block holds bytes as they are, or
code words for bytes and for repetitions of earlier output, with fixed codes or
with codes described in front. `inflate?` gives the data back.
-/

namespace ValueForm

namespace Inflate

/-- The shortest length and the number of further bits of each length code. -/
def lengthCodes : Array (Nat × Nat) :=
  #[(3, 0), (4, 0), (5, 0), (6, 0), (7, 0), (8, 0), (9, 0), (10, 0), (11, 1), (13, 1), (15, 1),
    (17, 1), (19, 2), (23, 2), (27, 2), (31, 2), (35, 3), (43, 3), (51, 3), (59, 3), (67, 4),
    (83, 4), (99, 4), (115, 4), (131, 5), (163, 5), (195, 5), (227, 5), (258, 0)]

/-- The shortest distance and the number of further bits of each distance
code. -/
def distanceCodes : Array (Nat × Nat) :=
  #[(1, 0), (2, 0), (3, 0), (4, 0), (5, 1), (7, 1), (9, 2), (13, 2), (17, 3), (25, 3), (33, 4),
    (49, 4), (65, 5), (97, 5), (129, 6), (193, 6), (257, 7), (385, 7), (513, 8), (769, 8),
    (1025, 9), (1537, 9), (2049, 10), (3073, 10), (4097, 11), (6145, 11), (8193, 12), (12289, 12),
    (16385, 13), (24577, 13)]

/-- The order in which the lengths of the words for word lengths are given. -/
def lengthOrder : List Nat :=
  [16, 17, 18, 0, 8, 7, 9, 6, 10, 5, 11, 4, 12, 3, 13, 2, 14, 1, 15]

/-- The codes of a block: one for bytes, lengths and the end, one for
distances. -/
structure Codes where
  literals : CodeTree
  distances : CodeTree

/-- Go on with a value that must be there. -/
def require {α : Type} (value : Option α) : BitReader α :=
  StateT.lift value

/-- The number a code stands for, with its further bits. -/
def readExtra (table : Array (Nat × Nat)) (code : Nat) : BitReader Nat := do
  let (base, width) ← require table[code]?
  return base + (← BitReader.number width)

/-- Repeat `length` bytes from `distance` bytes back. Before the start there
are zeros. -/
def copyBack (distance : Nat) : (length : Nat) → (output : Array UInt8) → Array UInt8
  | 0, output => output
  | length + 1, output =>
      let byte := if distance ≤ output.size then output[output.size - distance]?.getD 0 else 0
      copyBack distance length (output.push byte)

/-- Read words up to the end of a block. Every word takes a bit, so `words`
need not exceed the number of bits. -/
def readWords (codes : Codes) : (words : Nat) → (output : Array UInt8) → BitReader (Array UInt8)
  | 0, _ => failure
  | words + 1, output => do
      let symbol ← codes.literals.decode
      if symbol < 256 then readWords codes words (output.push (UInt8.ofNat symbol))
      else if symbol = 256 then return output
      else
        let length ← readExtra lengthCodes (symbol - 257)
        let distance ← readExtra distanceCodes (← codes.distances.decode)
        readWords codes words (copyBack distance length output)

/-- The codes of blocks that describe none. -/
def fixedCodes? : Option Codes := do
  let literals ← CodeTree.ofLengths?
    (List.replicate 144 8 ++ List.replicate 112 9 ++ List.replicate 24 7 ++ List.replicate 8 8)
  let distances ← CodeTree.ofLengths? (List.replicate 32 5)
  return ⟨literals, distances⟩

/-- Read `wanted` word lengths; `done` holds those read so far, last one first.
Every step takes a bit. -/
def readLengths (tree : CodeTree) (wanted : Nat) :
    (steps : Nat) → (done : List Nat) → BitReader (List Nat)
  | 0, _ => failure
  | steps + 1, done => do
      if done.length = wanted then return done.reverse
      else if wanted < done.length then failure
      else
        let symbol ← tree.decode
        if symbol < 16 then readLengths tree wanted steps (symbol :: done)
        else if symbol = 16 then do
          let last ← require done.head?
          let count := 3 + (← BitReader.number 2)
          readLengths tree wanted steps (List.replicate count last ++ done)
        else if symbol = 17 then do
          let count := 3 + (← BitReader.number 3)
          readLengths tree wanted steps (List.replicate count 0 ++ done)
        else do
          let count := 11 + (← BitReader.number 7)
          readLengths tree wanted steps (List.replicate count 0 ++ done)

/-- The greatest number of symbols of a code for bytes, lengths and the end. -/
def maxLiterals : Nat := 286

/-- The greatest number of symbols of a code for distances. -/
def maxDistances : Nat := 30

/-- The codes whose word lengths are given by words of a further code. -/
def readCodesBy (literalCount distanceCount lengthCount : Nat) : BitReader Codes := do
  let given ← (lengthOrder.take lengthCount).mapM fun symbol => do
    return (symbol, ← BitReader.number 3)
  let lengthTree ← require (CodeTree.complete? ((List.range 19).map fun symbol =>
    (given.lookup symbol).getD 0))
  let wanted := literalCount + distanceCount
  let lengths ← readLengths lengthTree wanted (wanted + 1) []
  let literals ← require (CodeTree.ofLengths? (lengths.take literalCount))
  let distances ← require (CodeTree.ofLengths? (lengths.drop literalCount))
  return ⟨literals, distances⟩

/-- The codes described in front of a block. -/
def readCodes : BitReader Codes := do
  let literalCount := 257 + (← BitReader.number 5)
  let distanceCount := 1 + (← BitReader.number 5)
  let lengthCount := 4 + (← BitReader.number 4)
  if literalCount ≤ maxLiterals ∧ distanceCount ≤ maxDistances then
    readCodesBy literalCount distanceCount lengthCount
  else
    failure

/-- A block of bytes as they are: their number, its complement, the bytes. -/
def readStored (output : Array UInt8) : BitReader (Array UInt8) := do
  BitReader.align
  let length ← BitReader.number 16
  let complement ← BitReader.number 16
  if length + complement = 0xffff then
    return output ++ (← BitReader.bytes length).toArray
  else
    failure

/-- The words of a block. -/
def readCompressed (codes : Codes) (output : Array UInt8) : BitReader (Array UInt8) := do
  let stream ← get
  readWords codes (stream.size + 1) output

/-- One block; the flag tells whether it is the last. -/
def readBlock (output : Array UInt8) : BitReader (Bool × Array UInt8) := do
  let last ← BitReader.bit
  let output ←
    match ← BitReader.number 2 with
    | 0 => readStored output
    | 1 => do readCompressed (← require fixedCodes?) output
    | 2 => do readCompressed (← readCodes) output
    | _ => failure
  return (last, output)

/-- Blocks up to the last one. Every block takes bits. -/
def readBlocks : (blocks : Nat) → (output : Array UInt8) → BitReader (Array UInt8)
  | 0, _ => failure
  | blocks + 1, output => do
      let (last, output) ← readBlock output
      if last then return output else readBlocks blocks output

end Inflate

/-- The data that was compressed, unless the input is damaged. What follows the
last block is ignored, and no input stands for no data. -/
def inflate? (input : Bytes) : Option Bytes :=
  if input.isEmpty then some []
  else
    let stream := BitStream.ofBytes input
    ((Inflate.readBlocks (stream.size + 1) #[]).run stream).map fun (output, _) => output.toList

end ValueForm
