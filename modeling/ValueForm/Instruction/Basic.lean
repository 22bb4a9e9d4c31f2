/-!
# Instructions

The instructions of a method body, grouped by what they do: a family such as
"load a local variable" is one constructor, with the storage kind and the
operand as arguments. The last group is the value form: instructions that move
flattened values and convert between a flattened value and a reference.
-/

namespace ValueForm

/-- The storage kinds of a local variable. -/
inductive LocalKind where
  | int | long | float | double | reference
  deriving DecidableEq, Repr

/-- The kinds numbers are computed in. -/
inductive NumericKind where
  | int | long | float | double
  deriving DecidableEq, Repr

/-- The kinds bits are computed in. -/
inductive IntegralKind where
  | int | long
  deriving DecidableEq, Repr

/-- The element kinds of arrays. -/
inductive ArrayKind where
  | int | long | float | double | reference | byte | char | short
  deriving DecidableEq, Repr

/-- What a method hands back. -/
inductive ReturnKind where
  | int | long | float | double | reference | void
  deriving DecidableEq, Repr

/-- Constants that need no operand. -/
inductive ImpliedConstant where
  | null
  | intMinus1 | int0 | int1 | int2 | int3 | int4 | int5
  | long0 | long1
  | float0 | float1 | float2
  | double0 | double1
  deriving DecidableEq, Repr

/-- Rearrangements of the operand stack. -/
inductive StackOp where
  | pop | pop2 | dup | dupX1 | dupX2 | dup2 | dup2X1 | dup2X2 | swap
  deriving DecidableEq, Repr

/-- Arithmetic on two numbers. -/
inductive BinaryOp where
  | add | sub | mul | div | rem
  deriving DecidableEq, Repr

/-- Shifts and bitwise operations. -/
inductive BitOp where
  | shl | shr | ushr | and | or | xor
  deriving DecidableEq, Repr

/-- Conversions between numeric kinds. -/
inductive NumericConversion where
  | i2l | i2f | i2d | l2i | l2f | l2d | f2i | f2l | f2d | d2i | d2l | d2f | i2b | i2c | i2s
  deriving DecidableEq, Repr

/-- Three-way comparisons; the suffix says how unordered operands compare. -/
inductive Comparison where
  | lcmp | fcmpl | fcmpg | dcmpl | dcmpg
  deriving DecidableEq, Repr

/-- The tests of conditional branches: against zero, between two ints, between
two references, and against null. -/
inductive BranchTest where
  | eq | ne | lt | ge | gt | le
  | intEq | intNe | intLt | intGe | intGt | intLe
  | refEq | refNe
  | null | nonNull
  deriving DecidableEq, Repr

/-- The number of a local slot, in one byte or, marked as wide, in two. -/
inductive SlotOperand where
  | narrow (slot : UInt8)
  | wide (slot : UInt16)
  deriving DecidableEq, Repr

/-- Four slots have short forms, and numerals stand for them. -/
instance (priority := high) neZeroShortSlots : @NeZero Nat Zero.ofOfNat0 4 :=
  ⟨Nat.succ_ne_zero 3⟩

/-- One instruction. Indices refer to the constant pool; branch offsets are
relative to the address of the instruction. -/
inductive Instruction where
  | nop
  | const (value : ImpliedConstant)
  | bipush (value : Int8)
  | sipush (value : Int16)
  | ldc (index : UInt8)
  | ldcWide (index : UInt16)
  | ldc2 (index : UInt16)
  | load (kind : LocalKind) (slot : SlotOperand)
  | loadShort (kind : LocalKind) (slot : Fin 4)
  | store (kind : LocalKind) (slot : SlotOperand)
  | storeShort (kind : LocalKind) (slot : Fin 4)
  | arrayLoad (kind : ArrayKind)
  | arrayStore (kind : ArrayKind)
  | stack (op : StackOp)
  | binary (op : BinaryOp) (kind : NumericKind)
  | negate (kind : NumericKind)
  | bitwise (op : BitOp) (kind : IntegralKind)
  | increment (slot : UInt8) (amount : Int8)
  | incrementWide (slot : UInt16) (amount : Int16)
  | convert (conversion : NumericConversion)
  | compare (comparison : Comparison)
  | branch (test : BranchTest) (offset : Int16)
  | goto (offset : Int16)
  | gotoWide (offset : Int32)
  | jsr (offset : Int16)
  | jsrWide (offset : Int32)
  | ret (slot : SlotOperand)
  | tableSwitch (fallback low high : Int32) (offsets : List Int32)
  | lookupSwitch (fallback : Int32) (pairs : List (Int32 × Int32))
  | leave (kind : ReturnKind)
  | getStatic (index : UInt16)
  | putStatic (index : UInt16)
  | getField (index : UInt16)
  | putField (index : UInt16)
  | invokeVirtual (index : UInt16)
  | invokeSpecial (index : UInt16)
  | invokeStatic (index : UInt16)
  | invokeInterface (index : UInt16) (count filler : UInt8)
  | invokeDynamic (index filler : UInt16)
  | new (index : UInt16)
  | newArray (elementCode : UInt8)
  | newReferenceArray (index : UInt16)
  | newMultiArray (index : UInt16) (dimensions : UInt8)
  | arrayLength
  | athrow
  | checkCast (index : UInt16)
  | instanceOf (index : UInt16)
  | monitorEnter
  | monitorExit
  | valueLoad (slot : SlotOperand)
  | valueStore (slot : SlotOperand)
  | valueArrayLoad
  | valueArrayStore
  | box (index : UInt16)
  | unbox (index : UInt16)
  deriving DecidableEq, Repr

/-- An instruction at an address. -/
structure Located where
  address : Nat
  instruction : Instruction
  deriving DecidableEq, Repr

namespace SlotOperand

/-- The slot an operand names. -/
def slot : SlotOperand → UInt16
  | .narrow slot => slot.toUInt16
  | .wide slot => slot

/-- The shortest operand naming a slot. -/
def shortest (slot : UInt16) : SlotOperand :=
  if slot.toNat < 256 then .narrow slot.toUInt8 else .wide slot

end SlotOperand

namespace Instruction

/-- Whether an instruction belongs to the value form. -/
def isValueForm : Instruction → Bool
  | .valueLoad _ | .valueStore _ | .valueArrayLoad | .valueArrayStore | .box _ | .unbox _ => true
  | _ => false

/-- The kind and slot a load reads. -/
def localLoad? : Instruction → Option (LocalKind × UInt16)
  | .load kind operand => some (kind, operand.slot)
  | .loadShort kind slot => some (kind, UInt16.ofNat slot.val)
  | _ => none

/-- The kind and slot a store writes. -/
def localStore? : Instruction → Option (LocalKind × UInt16)
  | .store kind operand => some (kind, operand.slot)
  | .storeShort kind slot => some (kind, UInt16.ofNat slot.val)
  | _ => none

/-- The shortest load of the flattened value in a slot. -/
def loadValue (slot : UInt16) : Instruction :=
  .valueLoad (.shortest slot)

/-- The shortest store of a flattened value into a slot. -/
def storeValue (slot : UInt16) : Instruction :=
  .valueStore (.shortest slot)

/-- The shortest load of the reference in a slot. -/
def loadReference (slot : UInt16) : Instruction :=
  if short : slot.toNat < 4 then .loadShort .reference ⟨slot.toNat, short⟩
  else .load .reference (.shortest slot)

/-- Whether control never passes on to the following instruction. -/
def endsFlow : Instruction → Bool
  | .goto _ | .gotoWide _ | .tableSwitch .. | .lookupSwitch .. | .leave _ | .athrow | .ret _ => true
  | _ => false

/-- Whether an instruction calls a subroutine. -/
def isSubroutineCall : Instruction → Bool
  | .jsr _ | .jsrWide _ => true
  | _ => false

end Instruction

end ValueForm
