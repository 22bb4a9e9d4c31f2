import ValueForm.Instruction.Basic

/-!
# Opcodes

The opcode byte of every instruction. Within a family the opcodes are
consecutive, so the opcode is a base plus the position of the family's
arguments. `Instruction.operandFree` lists the instructions that consist of
their opcode alone, and `Instruction.ofOpcode?` finds the one with a given
opcode.
-/

namespace ValueForm

/-- The position of a kind among the kinds. -/
def LocalKind.code : LocalKind → Nat
  | .int => 0
  | .long => 1
  | .float => 2
  | .double => 3
  | .reference => 4

/-- All kinds, in code order. -/
def LocalKind.all : List LocalKind :=
  [.int, .long, .float, .double, .reference]

/-- The position of a kind among the kinds. -/
def NumericKind.code : NumericKind → Nat
  | .int => 0
  | .long => 1
  | .float => 2
  | .double => 3

/-- All kinds, in code order. -/
def NumericKind.all : List NumericKind :=
  [.int, .long, .float, .double]

/-- The position of a kind among the kinds. -/
def IntegralKind.code : IntegralKind → Nat
  | .int => 0
  | .long => 1

/-- All kinds, in code order. -/
def IntegralKind.all : List IntegralKind :=
  [.int, .long]

/-- The position of a kind among the kinds. -/
def ArrayKind.code : ArrayKind → Nat
  | .int => 0
  | .long => 1
  | .float => 2
  | .double => 3
  | .reference => 4
  | .byte => 5
  | .char => 6
  | .short => 7

/-- All kinds, in code order. -/
def ArrayKind.all : List ArrayKind :=
  [.int, .long, .float, .double, .reference, .byte, .char, .short]

/-- The position of a kind among the kinds. -/
def ReturnKind.code : ReturnKind → Nat
  | .int => 0
  | .long => 1
  | .float => 2
  | .double => 3
  | .reference => 4
  | .void => 5

/-- All kinds, in code order. -/
def ReturnKind.all : List ReturnKind :=
  [.int, .long, .float, .double, .reference, .void]

/-- The position of a constant among the constants. -/
def ImpliedConstant.code : ImpliedConstant → Nat
  | .null => 0
  | .intMinus1 => 1
  | .int0 => 2
  | .int1 => 3
  | .int2 => 4
  | .int3 => 5
  | .int4 => 6
  | .int5 => 7
  | .long0 => 8
  | .long1 => 9
  | .float0 => 10
  | .float1 => 11
  | .float2 => 12
  | .double0 => 13
  | .double1 => 14

/-- All constants, in code order. -/
def ImpliedConstant.all : List ImpliedConstant :=
  [.null, .intMinus1, .int0, .int1, .int2, .int3, .int4, .int5, .long0, .long1, .float0, .float1,
    .float2, .double0, .double1]

/-- The position of a rearrangement among the rearrangements. -/
def StackOp.code : StackOp → Nat
  | .pop => 0
  | .pop2 => 1
  | .dup => 2
  | .dupX1 => 3
  | .dupX2 => 4
  | .dup2 => 5
  | .dup2X1 => 6
  | .dup2X2 => 7
  | .swap => 8

/-- All rearrangements, in code order. -/
def StackOp.all : List StackOp :=
  [.pop, .pop2, .dup, .dupX1, .dupX2, .dup2, .dup2X1, .dup2X2, .swap]

/-- The position of an operation among the operations. -/
def BinaryOp.code : BinaryOp → Nat
  | .add => 0
  | .sub => 1
  | .mul => 2
  | .div => 3
  | .rem => 4

/-- All operations, in code order. -/
def BinaryOp.all : List BinaryOp :=
  [.add, .sub, .mul, .div, .rem]

/-- The position of an operation among the operations. -/
def BitOp.code : BitOp → Nat
  | .shl => 0
  | .shr => 1
  | .ushr => 2
  | .and => 3
  | .or => 4
  | .xor => 5

/-- All operations, in code order. -/
def BitOp.all : List BitOp :=
  [.shl, .shr, .ushr, .and, .or, .xor]

/-- The position of a conversion among the conversions. -/
def NumericConversion.code : NumericConversion → Nat
  | .i2l => 0
  | .i2f => 1
  | .i2d => 2
  | .l2i => 3
  | .l2f => 4
  | .l2d => 5
  | .f2i => 6
  | .f2l => 7
  | .f2d => 8
  | .d2i => 9
  | .d2l => 10
  | .d2f => 11
  | .i2b => 12
  | .i2c => 13
  | .i2s => 14

/-- All conversions, in code order. -/
def NumericConversion.all : List NumericConversion :=
  [.i2l, .i2f, .i2d, .l2i, .l2f, .l2d, .f2i, .f2l, .f2d, .d2i, .d2l, .d2f, .i2b, .i2c, .i2s]

/-- The position of a comparison among the comparisons. -/
def Comparison.code : Comparison → Nat
  | .lcmp => 0
  | .fcmpl => 1
  | .fcmpg => 2
  | .dcmpl => 3
  | .dcmpg => 4

/-- All comparisons, in code order. -/
def Comparison.all : List Comparison :=
  [.lcmp, .fcmpl, .fcmpg, .dcmpl, .dcmpg]

/-- The opcode of a conditional branch. -/
def BranchTest.opcode : BranchTest → Nat
  | .eq => 0x99
  | .ne => 0x9a
  | .lt => 0x9b
  | .ge => 0x9c
  | .gt => 0x9d
  | .le => 0x9e
  | .intEq => 0x9f
  | .intNe => 0xa0
  | .intLt => 0xa1
  | .intGe => 0xa2
  | .intGt => 0xa3
  | .intLe => 0xa4
  | .refEq => 0xa5
  | .refNe => 0xa6
  | .null => 0xc6
  | .nonNull => 0xc7

namespace Instruction

/-- The byte in front of an instruction with a wide slot. -/
def wideMarker : UInt8 := 0xc4

/-- The opcode of an instruction; a wide slot does not change it. -/
def opcode : Instruction → Nat
  | .nop => 0x00
  | .const value => 0x01 + value.code
  | .bipush _ => 0x10
  | .sipush _ => 0x11
  | .ldc _ => 0x12
  | .ldcWide _ => 0x13
  | .ldc2 _ => 0x14
  | .load kind _ => 0x15 + kind.code
  | .loadShort kind slot => 0x1a + 4 * kind.code + slot.val
  | .arrayLoad kind => 0x2e + kind.code
  | .store kind _ => 0x36 + kind.code
  | .storeShort kind slot => 0x3b + 4 * kind.code + slot.val
  | .arrayStore kind => 0x4f + kind.code
  | .stack op => 0x57 + op.code
  | .binary op kind => 0x60 + 4 * op.code + kind.code
  | .negate kind => 0x74 + kind.code
  | .bitwise op kind => 0x78 + 2 * op.code + kind.code
  | .increment .. => 0x84
  | .incrementWide .. => 0x84
  | .convert conversion => 0x85 + conversion.code
  | .compare comparison => 0x94 + comparison.code
  | .branch test _ => test.opcode
  | .goto _ => 0xa7
  | .jsr _ => 0xa8
  | .ret _ => 0xa9
  | .tableSwitch .. => 0xaa
  | .lookupSwitch .. => 0xab
  | .leave kind => 0xac + kind.code
  | .getStatic _ => 0xb2
  | .putStatic _ => 0xb3
  | .getField _ => 0xb4
  | .putField _ => 0xb5
  | .invokeVirtual _ => 0xb6
  | .invokeSpecial _ => 0xb7
  | .invokeStatic _ => 0xb8
  | .invokeInterface .. => 0xb9
  | .invokeDynamic .. => 0xba
  | .new _ => 0xbb
  | .newArray _ => 0xbc
  | .newReferenceArray _ => 0xbd
  | .arrayLength => 0xbe
  | .athrow => 0xbf
  | .checkCast _ => 0xc0
  | .instanceOf _ => 0xc1
  | .monitorEnter => 0xc2
  | .monitorExit => 0xc3
  | .newMultiArray .. => 0xc5
  | .gotoWide _ => 0xc8
  | .jsrWide _ => 0xc9
  | .valueLoad _ => 0xcb
  | .valueStore _ => 0xcc
  | .valueArrayLoad => 0xcd
  | .valueArrayStore => 0xce
  | .box _ => 0xd8
  | .unbox _ => 0xd9

/-- The slots that loads and stores name without an operand. -/
def shortSlots : List (Fin 4) := [0, 1, 2, 3]

/-- The instructions that consist of their opcode alone. -/
def operandFree : List Instruction :=
  [.nop, .arrayLength, .athrow, .monitorEnter, .monitorExit, .valueArrayLoad, .valueArrayStore] ++
    ImpliedConstant.all.map .const ++
    LocalKind.all.flatMap (fun kind => shortSlots.map (.loadShort kind)) ++
    LocalKind.all.flatMap (fun kind => shortSlots.map (.storeShort kind)) ++
    ArrayKind.all.map .arrayLoad ++
    ArrayKind.all.map .arrayStore ++
    StackOp.all.map .stack ++
    BinaryOp.all.flatMap (fun op => NumericKind.all.map (.binary op)) ++
    NumericKind.all.map .negate ++
    BitOp.all.flatMap (fun op => IntegralKind.all.map (.bitwise op)) ++
    NumericConversion.all.map .convert ++
    Comparison.all.map .compare ++
    ReturnKind.all.map .leave

/-- The operand-free instruction of every opcode, by position. -/
def opcodeTable : Array (Option Instruction) :=
  (Array.range 256).map fun code => operandFree.find? fun instruction => instruction.opcode == code

/-- The operand-free instruction with an opcode. -/
def ofOpcode? (code : UInt8) : Option Instruction :=
  opcodeTable[code.toNat]?.join

end Instruction

end ValueForm
