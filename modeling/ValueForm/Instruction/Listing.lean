import ValueForm.Instruction.Basic

/-!
# Listings

An instruction as one entry of a listing: its mnemonic, a single operand in
parentheses, several operands by name in braces.
-/

namespace ValueForm

/-- The letter of a kind in mnemonics. -/
def LocalKind.letter : LocalKind → String
  | .int => "I"
  | .long => "L"
  | .float => "F"
  | .double => "D"
  | .reference => "A"

/-- The letter of a kind in mnemonics. -/
def NumericKind.letter : NumericKind → String
  | .int => "I"
  | .long => "L"
  | .float => "F"
  | .double => "D"

/-- The letter of a kind in mnemonics. -/
def IntegralKind.letter : IntegralKind → String
  | .int => "I"
  | .long => "L"

/-- The letter of a kind in mnemonics. -/
def ArrayKind.letter : ArrayKind → String
  | .int => "I"
  | .long => "L"
  | .float => "F"
  | .double => "D"
  | .reference => "A"
  | .byte => "B"
  | .char => "C"
  | .short => "S"

/-- The mnemonic of a return. -/
def ReturnKind.mnemonic : ReturnKind → String
  | .int => "Ireturn"
  | .long => "Lreturn"
  | .float => "Freturn"
  | .double => "Dreturn"
  | .reference => "Areturn"
  | .void => "Return"

/-- The mnemonic of a constant. -/
def ImpliedConstant.mnemonic : ImpliedConstant → String
  | .null => "Aconstnull"
  | .intMinus1 => "Iconstm1"
  | .int0 => "Iconst0"
  | .int1 => "Iconst1"
  | .int2 => "Iconst2"
  | .int3 => "Iconst3"
  | .int4 => "Iconst4"
  | .int5 => "Iconst5"
  | .long0 => "Lconst0"
  | .long1 => "Lconst1"
  | .float0 => "Fconst0"
  | .float1 => "Fconst1"
  | .float2 => "Fconst2"
  | .double0 => "Dconst0"
  | .double1 => "Dconst1"

/-- The mnemonic of a rearrangement of the stack. -/
def StackOp.mnemonic : StackOp → String
  | .pop => "Pop"
  | .pop2 => "Pop2"
  | .dup => "Dup"
  | .dupX1 => "Dupx1"
  | .dupX2 => "Dupx2"
  | .dup2 => "Dup2"
  | .dup2X1 => "Dup2x1"
  | .dup2X2 => "Dup2x2"
  | .swap => "Swap"

/-- The mnemonic of an operation, without the letter of its kind. -/
def BinaryOp.mnemonic : BinaryOp → String
  | .add => "add"
  | .sub => "sub"
  | .mul => "mul"
  | .div => "div"
  | .rem => "rem"

/-- The mnemonic of an operation, without the letter of its kind. -/
def BitOp.mnemonic : BitOp → String
  | .shl => "shl"
  | .shr => "shr"
  | .ushr => "ushr"
  | .and => "and"
  | .or => "or"
  | .xor => "xor"

/-- The mnemonic of a conversion. -/
def NumericConversion.mnemonic : NumericConversion → String
  | .i2l => "I2l"
  | .i2f => "I2f"
  | .i2d => "I2d"
  | .l2i => "L2i"
  | .l2f => "L2f"
  | .l2d => "L2d"
  | .f2i => "F2i"
  | .f2l => "F2l"
  | .f2d => "F2d"
  | .d2i => "D2i"
  | .d2l => "D2l"
  | .d2f => "D2f"
  | .i2b => "I2b"
  | .i2c => "I2c"
  | .i2s => "I2s"

/-- The mnemonic of a comparison. -/
def Comparison.mnemonic : Comparison → String
  | .lcmp => "Lcmp"
  | .fcmpl => "Fcmpl"
  | .fcmpg => "Fcmpg"
  | .dcmpl => "Dcmpl"
  | .dcmpg => "Dcmpg"

/-- The mnemonic of a conditional branch. -/
def BranchTest.mnemonic : BranchTest → String
  | .eq => "Ifeq"
  | .ne => "Ifne"
  | .lt => "Iflt"
  | .ge => "Ifge"
  | .gt => "Ifgt"
  | .le => "Ifle"
  | .intEq => "IfIcmpeq"
  | .intNe => "IfIcmpne"
  | .intLt => "IfIcmplt"
  | .intGe => "IfIcmpge"
  | .intGt => "IfIcmpgt"
  | .intLe => "IfIcmple"
  | .refEq => "IfAcmpeq"
  | .refNe => "IfAcmpne"
  | .null => "Ifnull"
  | .nonNull => "Ifnonnull"

namespace Listing

/-- A mnemonic with one operand. -/
def unary (mnemonic : String) (operand : Int) : String :=
  mnemonic ++ "(" ++ toString operand ++ ")"

/-- A mnemonic with a pool index. -/
def indexed (mnemonic : String) (index : UInt16) : String :=
  unary mnemonic index.toNat

/-- A mnemonic with a slot; a wide slot is marked. -/
def slotted (mnemonic : String) : SlotOperand → String
  | .narrow slot => unary mnemonic slot.toNat
  | .wide slot => unary (mnemonic ++ "Wide") slot.toNat

/-- A mnemonic with named operands. -/
def named (mnemonic : String) (operands : List (String × String)) : String :=
  let texts := operands.map fun (name, value) => name ++ ": " ++ value
  mnemonic ++ " \x7b " ++ String.intercalate ", " texts ++ " \x7d"

/-- A list of operands. -/
def listed (operands : List String) : String :=
  "[" ++ String.intercalate ", " operands ++ "]"

/-- A jump offset or switch key. -/
def offset (value : Int32) : String :=
  toString value.toInt

/-- A switch key with its offset. -/
def switchPair : Int32 × Int32 → String
  | (key, target) => "(" ++ offset key ++ ", " ++ offset target ++ ")"

end Listing

open Listing in
/-- The entry of an instruction. -/
def Instruction.listing : Instruction → String
  | .nop => "Nop"
  | .const value => value.mnemonic
  | .bipush value => unary "Bipush" value.toInt
  | .sipush value => unary "Sipush" value.toInt
  | .ldc index => unary "Ldc" index.toNat
  | .ldcWide index => indexed "LdcW" index
  | .ldc2 index => indexed "Ldc2W" index
  | .load kind slot => slotted (kind.letter ++ "load") slot
  | .loadShort kind slot => kind.letter ++ "load" ++ toString slot.val
  | .store kind slot => slotted (kind.letter ++ "store") slot
  | .storeShort kind slot => kind.letter ++ "store" ++ toString slot.val
  | .arrayLoad kind => kind.letter ++ "aload"
  | .arrayStore kind => kind.letter ++ "astore"
  | .stack op => op.mnemonic
  | .binary op kind => kind.letter ++ op.mnemonic
  | .negate kind => kind.letter ++ "neg"
  | .bitwise op kind => kind.letter ++ op.mnemonic
  | .increment slot amount =>
      named "Iinc" [("index", toString slot.toNat), ("value", toString amount.toInt)]
  | .incrementWide slot amount =>
      named "IincWide" [("index", toString slot.toNat), ("value", toString amount.toInt)]
  | .convert conversion => conversion.mnemonic
  | .compare comparison => comparison.mnemonic
  | .branch test target => unary test.mnemonic target.toInt
  | .goto target => unary "Goto" target.toInt
  | .gotoWide target => unary "GotoW" target.toInt
  | .jsr target => unary "Jsr" target.toInt
  | .jsrWide target => unary "JsrW" target.toInt
  | .ret slot => slotted "Ret" slot
  | .tableSwitch fallback low high offsets =>
      named "Tableswitch" [("default", offset fallback), ("low", offset low),
        ("high", offset high), ("offsets", listed (offsets.map offset))]
  | .lookupSwitch fallback pairs =>
      named "Lookupswitch" [("default", offset fallback), ("npairs", toString pairs.length),
        ("pairs", listed (pairs.map switchPair))]
  | .leave kind => kind.mnemonic
  | .getStatic index => indexed "Getstatic" index
  | .putStatic index => indexed "Putstatic" index
  | .getField index => indexed "Getfield" index
  | .putField index => indexed "Putfield" index
  | .invokeVirtual index => indexed "Invokevirtual" index
  | .invokeSpecial index => indexed "Invokespecial" index
  | .invokeStatic index => indexed "Invokestatic" index
  | .invokeInterface index count filler =>
      named "Invokeinterface" [("index", toString index.toNat), ("count", toString count.toNat),
        ("filler", toString filler.toNat)]
  | .invokeDynamic index filler =>
      named "Invokedynamic" [("index", toString index.toNat), ("filler", toString filler.toNat)]
  | .new index => indexed "New" index
  | .newArray elementCode => unary "Newarray" elementCode.toNat
  | .newReferenceArray index => indexed "Anewarray" index
  | .newMultiArray index dimensions =>
      named "Multianewarray" [("index", toString index.toNat),
        ("dimensions", toString dimensions.toNat)]
  | .arrayLength => "Arraylength"
  | .athrow => "Athrow"
  | .checkCast index => indexed "Checkcast" index
  | .instanceOf index => indexed "Instanceof" index
  | .monitorEnter => "Monitorenter"
  | .monitorExit => "Monitorexit"
  | .valueLoad slot => slotted "Vload" slot
  | .valueStore slot => slotted "Vstore" slot
  | .valueArrayLoad => "Vaload"
  | .valueArrayStore => "Vastore"
  | .box index => indexed "Vbox" index
  | .unbox index => indexed "Vunbox" index

end ValueForm
