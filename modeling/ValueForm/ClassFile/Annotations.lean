import ValueForm.Reader

/-!
# Annotations

An annotation has a type and named element values; an element value is a
constant, an enumeration constant, a class, a nested annotation or an array of
element values. Nesting is unbounded, but every level consumes input, so the
readers descend at most as often as there are bytes.
-/

namespace ValueForm

/-- The kind of a constant element value. -/
inductive ConstantKind where
  | byte | char | int | short | boolean | double | float | long | string
  deriving DecidableEq, Repr

namespace ConstantKind

/-- The tag of a kind. -/
def tag : ConstantKind → Char
  | .byte => 'B'
  | .char => 'C'
  | .int => 'I'
  | .short => 'S'
  | .boolean => 'Z'
  | .double => 'D'
  | .float => 'F'
  | .long => 'J'
  | .string => 's'

/-- The kind with a tag. -/
def ofTag? : Char → Option ConstantKind
  | 'B' => some .byte
  | 'C' => some .char
  | 'I' => some .int
  | 'S' => some .short
  | 'Z' => some .boolean
  | 'D' => some .double
  | 'F' => some .float
  | 'J' => some .long
  | 's' => some .string
  | _ => none

end ConstantKind

mutual

/-- The value of an element. -/
inductive ElementValue where
  | constant (kind : ConstantKind) (index : UInt16)
  | enumConstant (typeName constantName : UInt16)
  | classInfo (index : UInt16)
  | nested (value : AnnotationEntry)
  | array (values : List ElementValue)

/-- An annotation: the index of its type and its named element values. -/
inductive AnnotationEntry where
  | mk (type : UInt16) (elements : List (UInt16 × ElementValue))

end

namespace AnnotationEntry

/-- The index of the type's descriptor. -/
def type : AnnotationEntry → UInt16
  | .mk type _ => type

/-- The named element values. -/
def elements : AnnotationEntry → List (UInt16 × ElementValue)
  | .mk _ elements => elements

/-- An annotation whose element values are read by `value`. -/
def readWith (value : Reader ElementValue) : Reader AnnotationEntry := do
  let type ← Reader.u16
  let elements ← Reader.counted16 do
    let name ← Reader.u16
    return (name, ← value)
  return .mk type elements

end AnnotationEntry

namespace ElementValue

/-- The fields of an element value with a given tag; nested values are read by
`value`. -/
def readFields (value : Reader ElementValue) (tag : Char) : Reader ElementValue :=
  match ConstantKind.ofTag? tag with
  | some kind => do return .constant kind (← Reader.u16)
  | none =>
    if tag = 'e' then do
      let typeName ← Reader.u16
      return .enumConstant typeName (← Reader.u16)
    else if tag = 'c' then do
      return .classInfo (← Reader.u16)
    else if tag = '@' then do
      return .nested (← AnnotationEntry.readWith value)
    else if tag = '[' then do
      return .array (← Reader.counted16 value)
    else
      Reader.fail .unknownTag

/-- An element value nested at most `depth` deep. -/
def readNested : (depth : Nat) → Reader ElementValue
  | 0 => Reader.fail .unknownTag
  | depth + 1 => do
      let tag ← Reader.u8
      readFields (readNested depth) (Char.ofNat tag.toNat)

/-- An element value. Every level of nesting takes at least its tag byte. -/
def read : Reader ElementValue := fun input =>
  readNested (input.length + 1) input

end ElementValue

namespace AnnotationEntry

/-- An annotation. -/
def read : Reader AnnotationEntry := fun input =>
  readWith (ElementValue.readNested (input.length + 1)) input

/-- The body of an attribute holding annotations. -/
def readTable : Reader (List AnnotationEntry) :=
  Reader.counted16 read

/-- The attribute of annotations kept for reflection. -/
def visibleTableName : String := "RuntimeVisibleAnnotations"

/-- The attribute of annotations not kept for reflection. -/
def invisibleTableName : String := "RuntimeInvisibleAnnotations"

end AnnotationEntry

end ValueForm
