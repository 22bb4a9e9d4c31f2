import ValueForm.Reader
import ValueForm.Instruction.Opcode

/-!
# Encoding of instructions

`Instruction.toBytes` writes an instruction and `Instruction.read` reads one;
both take the address, because the operands of a switch are aligned to it.
`Code.encode` lays instructions out back to back from address 0 and
`Code.decode` takes a code array apart again.
-/

namespace ValueForm

namespace Instruction

/-- The number of bytes between the opcode of a switch at an address and the
next multiple of four. -/
def padding (address : Nat) : Nat :=
  (4 - (address + 1) % 4) % 4

/-- The number of entries of a jump table from `low` to `high`, if it is
positive and itself a 32-bit number. -/
def tableLength? (low high : Int32) : Option Nat :=
  let count := high.toInt - low.toInt + 1
  if 1 ≤ count ∧ count < 2147483648 then some count.toNat else none

/-- The length of an instruction at an address. -/
def size (address : Nat) : Instruction → Nat
  | .bipush _ | .ldc _ | .newArray _ => 2
  | .load _ (.narrow _) | .store _ (.narrow _) | .ret (.narrow _) => 2
  | .valueLoad (.narrow _) | .valueStore (.narrow _) => 2
  | .load _ (.wide _) | .store _ (.wide _) | .ret (.wide _) => 4
  | .valueLoad (.wide _) | .valueStore (.wide _) => 4
  | .sipush _ | .ldcWide _ | .ldc2 _ | .increment .. => 3
  | .branch .. | .goto _ | .jsr _ => 3
  | .getStatic _ | .putStatic _ | .getField _ | .putField _ => 3
  | .invokeVirtual _ | .invokeSpecial _ | .invokeStatic _ => 3
  | .new _ | .newReferenceArray _ | .checkCast _ | .instanceOf _ | .box _ | .unbox _ => 3
  | .newMultiArray .. => 4
  | .invokeInterface .. | .invokeDynamic .. | .gotoWide _ | .jsrWide _ => 5
  | .incrementWide .. => 6
  | .tableSwitch _ _ _ offsets => 1 + padding address + 12 + 4 * offsets.length
  | .lookupSwitch _ pairs => 1 + padding address + 8 + 8 * pairs.length
  | _ => 1

/-- A signed 32-bit number. -/
def int32Bytes (value : Int32) : Bytes :=
  Bytes.ofUInt32 value.toUInt32

/-- A signed 16-bit number. -/
def int16Bytes (value : Int16) : Bytes :=
  Bytes.ofUInt16 value.toUInt16

/-- An opcode with a slot operand; a wide slot is announced in front. -/
def slotBytes (code : UInt8) : SlotOperand → Bytes
  | .narrow slot => [code, slot]
  | .wide slot => wideMarker :: code :: Bytes.ofUInt16 slot

/-- The encoding of an instruction at an address. -/
def toBytes (address : Nat) (instruction : Instruction) : Bytes :=
  let code := UInt8.ofNat instruction.opcode
  match instruction with
  | .bipush value => [code, value.toUInt8]
  | .sipush value => code :: int16Bytes value
  | .ldc index => [code, index]
  | .newArray elementCode => [code, elementCode]
  | .load _ slot | .store _ slot | .ret slot | .valueLoad slot | .valueStore slot =>
      slotBytes code slot
  | .increment slot amount => [code, slot, amount.toUInt8]
  | .incrementWide slot amount =>
      wideMarker :: code :: (Bytes.ofUInt16 slot ++ int16Bytes amount)
  | .branch _ offset | .goto offset | .jsr offset => code :: int16Bytes offset
  | .gotoWide offset | .jsrWide offset => code :: int32Bytes offset
  | .tableSwitch fallback low high offsets =>
      code :: (List.replicate (padding address) 0 ++ int32Bytes fallback ++ int32Bytes low ++
        int32Bytes high ++ offsets.flatMap int32Bytes)
  | .lookupSwitch fallback pairs =>
      code :: (List.replicate (padding address) 0 ++ int32Bytes fallback ++
        Bytes.ofUInt32 (UInt32.ofNat pairs.length) ++
        pairs.flatMap fun (key, offset) => int32Bytes key ++ int32Bytes offset)
  | .ldcWide index | .ldc2 index | .getStatic index | .putStatic index | .getField index
  | .putField index | .invokeVirtual index | .invokeSpecial index | .invokeStatic index
  | .new index | .newReferenceArray index | .checkCast index | .instanceOf index | .box index
  | .unbox index => code :: Bytes.ofUInt16 index
  | .invokeInterface index count filler => code :: (Bytes.ofUInt16 index ++ [count, filler])
  | .invokeDynamic index filler => code :: (Bytes.ofUInt16 index ++ Bytes.ofUInt16 filler)
  | .newMultiArray index dimensions => code :: (Bytes.ofUInt16 index ++ [dimensions])
  | .nop | .const _ | .loadShort .. | .storeShort .. | .arrayLoad _ | .arrayStore _ | .stack _
  | .binary .. | .negate _ | .bitwise .. | .convert _ | .compare _ | .leave _ | .arrayLength
  | .athrow | .monitorEnter | .monitorExit | .valueArrayLoad | .valueArrayStore => [code]

/-- A signed 16-bit number. -/
def readInt16 : Reader Int16 := do
  return (← Reader.u16).toInt16

/-- A signed 32-bit number. -/
def readInt32 : Reader Int32 := do
  return (← Reader.u32).toInt32

/-- A one-byte slot. -/
def readNarrow : Reader SlotOperand := do
  return .narrow (← Reader.u8)

/-- A two-byte slot. -/
def readWide : Reader SlotOperand := do
  return .wide (← Reader.u16)

/-- A constant pool index, passed to a constructor. -/
def readIndexed (make : UInt16 → Instruction) : Reader Instruction := do
  return make (← Reader.u16)

/-- A conditional branch. -/
def readBranch (test : BranchTest) : Reader Instruction := do
  return .branch test (← readInt16)

/-- The operands of a jump table. -/
def readTableSwitch (address : Nat) : Reader Instruction := do
  discard (Reader.take (padding address))
  let fallback ← readInt32
  let low ← readInt32
  let high ← readInt32
  match tableLength? low high with
  | some count => return .tableSwitch fallback low high (← Reader.times count readInt32)
  | none => Reader.fail .unknownTag

/-- The operands of a lookup table. -/
def readLookupSwitch (address : Nat) : Reader Instruction := do
  discard (Reader.take (padding address))
  let fallback ← readInt32
  let count ← Reader.u32
  let pairs ← Reader.times count.toNat do
    let key ← readInt32
    return (key, ← readInt32)
  return .lookupSwitch fallback pairs

/-- The rest of an instruction that starts with the wide marker. -/
def readWideForm : Reader Instruction := do
  let code ← Reader.u8
  match code.toNat with
  | 0x15 => return .load .int (← readWide)
  | 0x16 => return .load .long (← readWide)
  | 0x17 => return .load .float (← readWide)
  | 0x18 => return .load .double (← readWide)
  | 0x19 => return .load .reference (← readWide)
  | 0x36 => return .store .int (← readWide)
  | 0x37 => return .store .long (← readWide)
  | 0x38 => return .store .float (← readWide)
  | 0x39 => return .store .double (← readWide)
  | 0x3a => return .store .reference (← readWide)
  | 0x84 => do
      let slot ← Reader.u16
      return .incrementWide slot (← readInt16)
  | 0xa9 => return .ret (← readWide)
  | 0xcb => return .valueLoad (← readWide)
  | 0xcc => return .valueStore (← readWide)
  | _ => Reader.fail .unknownTag

/-- The operands of the instruction with a given opcode. -/
def readOperands (address : Nat) (code : UInt8) : Reader Instruction :=
  match code.toNat with
  | 0x10 => do return .bipush (← Reader.u8).toInt8
  | 0x11 => do return .sipush (← readInt16)
  | 0x12 => do return .ldc (← Reader.u8)
  | 0x13 => readIndexed .ldcWide
  | 0x14 => readIndexed .ldc2
  | 0x15 => do return .load .int (← readNarrow)
  | 0x16 => do return .load .long (← readNarrow)
  | 0x17 => do return .load .float (← readNarrow)
  | 0x18 => do return .load .double (← readNarrow)
  | 0x19 => do return .load .reference (← readNarrow)
  | 0x36 => do return .store .int (← readNarrow)
  | 0x37 => do return .store .long (← readNarrow)
  | 0x38 => do return .store .float (← readNarrow)
  | 0x39 => do return .store .double (← readNarrow)
  | 0x3a => do return .store .reference (← readNarrow)
  | 0x84 => do
      let slot ← Reader.u8
      return .increment slot (← Reader.u8).toInt8
  | 0x99 => readBranch .eq
  | 0x9a => readBranch .ne
  | 0x9b => readBranch .lt
  | 0x9c => readBranch .ge
  | 0x9d => readBranch .gt
  | 0x9e => readBranch .le
  | 0x9f => readBranch .intEq
  | 0xa0 => readBranch .intNe
  | 0xa1 => readBranch .intLt
  | 0xa2 => readBranch .intGe
  | 0xa3 => readBranch .intGt
  | 0xa4 => readBranch .intLe
  | 0xa5 => readBranch .refEq
  | 0xa6 => readBranch .refNe
  | 0xa7 => do return .goto (← readInt16)
  | 0xa8 => do return .jsr (← readInt16)
  | 0xa9 => do return .ret (← readNarrow)
  | 0xaa => readTableSwitch address
  | 0xab => readLookupSwitch address
  | 0xb2 => readIndexed .getStatic
  | 0xb3 => readIndexed .putStatic
  | 0xb4 => readIndexed .getField
  | 0xb5 => readIndexed .putField
  | 0xb6 => readIndexed .invokeVirtual
  | 0xb7 => readIndexed .invokeSpecial
  | 0xb8 => readIndexed .invokeStatic
  | 0xb9 => do
      let index ← Reader.u16
      let count ← Reader.u8
      return .invokeInterface index count (← Reader.u8)
  | 0xba => do
      let index ← Reader.u16
      return .invokeDynamic index (← Reader.u16)
  | 0xbb => readIndexed .new
  | 0xbc => do return .newArray (← Reader.u8)
  | 0xbd => readIndexed .newReferenceArray
  | 0xc0 => readIndexed .checkCast
  | 0xc1 => readIndexed .instanceOf
  | 0xc4 => readWideForm
  | 0xc5 => do
      let index ← Reader.u16
      return .newMultiArray index (← Reader.u8)
  | 0xc6 => readBranch .null
  | 0xc7 => readBranch .nonNull
  | 0xc8 => do return .gotoWide (← readInt32)
  | 0xc9 => do return .jsrWide (← readInt32)
  | 0xcb => do return .valueLoad (← readNarrow)
  | 0xcc => do return .valueStore (← readNarrow)
  | 0xd8 => readIndexed .box
  | 0xd9 => readIndexed .unbox
  | _ => Reader.fail .unknownTag

/-- The instruction at an address. -/
def read (address : Nat) : Reader Instruction := do
  let code ← Reader.u8
  match ofOpcode? code with
  | some instruction => return instruction
  | none => readOperands address code

end Instruction

/-- No instruction can be read at an address. -/
structure DecodeError where
  address : Nat
  deriving DecidableEq, Repr

namespace DecodeError

/-- What went wrong at the address. -/
def cause (error : DecodeError) : String :=
  "no variants matched at 0x" ++ String.ofList (Nat.toDigits 16 error.address)

/-- The failure in words. -/
def message (error : DecodeError) : String :=
  s!"cannot decode instruction at {error.address}: " ++ error.cause

end DecodeError

namespace Code

/-- Read instructions from `address` on until the input ends; `done` holds
those already read, last one first. Every instruction takes at least one byte,
so `fuel` need not exceed the length of the input. -/
def decodeFrom : (fuel : Nat) → (address : Nat) → (done : List Located) → (input : Bytes) →
    Except DecodeError (List Located)
  | _, _, done, [] => .ok done.reverse
  | 0, address, _, _ => .error ⟨address⟩
  | fuel + 1, address, done, input =>
      match Instruction.read address input with
      | .error _ => .error ⟨address⟩
      | .ok (instruction, rest) =>
          decodeFrom fuel (address + instruction.size address) (⟨address, instruction⟩ :: done) rest

/-- The instructions of a code array with their addresses. -/
def decode (code : Bytes) : Except DecodeError (List Located) :=
  decodeFrom code.length 0 [] code

/-- Lay instructions out from `address` on, behind the parts in `done`, last
one first. -/
def encodeFrom : (address : Nat) → (done : List Bytes) → List Instruction → Bytes
  | _, done, [] => done.reverse.flatten
  | address, done, instruction :: rest =>
      encodeFrom (address + instruction.size address) (instruction.toBytes address :: done) rest

/-- Instructions laid out back to back from address 0. -/
def encode (instructions : List Instruction) : Bytes :=
  encodeFrom 0 [] instructions

end Code

end ValueForm
