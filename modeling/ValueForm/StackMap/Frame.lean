import ValueForm.Reader

/-!
# Stack map frames

The entries of a `StackMapTable`. A frame says what the verifier may assume
before an instruction; it is written relative to the frame before it, in one of
seven shapes, the first byte telling which.
-/

namespace ValueForm

/-- What the verifier knows about a local or a stack entry. -/
inductive VerificationType where
  | top
  | integer
  | float
  | double
  | long
  | null
  | uninitializedThis
  /-- An object of the class with this index. -/
  | object (classIndex : UInt16)
  /-- An object allocated at this address and not yet constructed. -/
  | uninitialized (address : UInt16)
  deriving DecidableEq, Repr

namespace VerificationType

/-- How many local slots a type takes. -/
def slots : VerificationType → Nat
  | .long => 2
  | .double => 2
  | _ => 1

/-- The encoding of a type. -/
def toBytes : VerificationType → Bytes
  | .top => [0]
  | .integer => [1]
  | .float => [2]
  | .double => [3]
  | .long => [4]
  | .null => [5]
  | .uninitializedThis => [6]
  | .object classIndex => 7 :: Bytes.ofUInt16 classIndex
  | .uninitialized address => 8 :: Bytes.ofUInt16 address

/-- A tag and its operand. An unknown tag is reported with the tag itself still
unread. -/
def read : Reader VerificationType := do
  let start ← Reader.remaining
  let tag ← Reader.u8
  match tag.toNat with
  | 0 => return .top
  | 1 => return .integer
  | 2 => return .float
  | 3 => return .double
  | 4 => return .long
  | 5 => return .null
  | 6 => return .uninitializedThis
  | 7 => return .object (← Reader.u16)
  | 8 => return .uninitialized (← Reader.u16)
  | _ => fun _ => .error ⟨.unknownTag, start⟩

end VerificationType

/-- An entry of a stack map table. -/
inductive StackMapFrame where
  /-- The same locals and an empty stack. -/
  | same (delta : Fin 64)
  /-- The same locals and one stack entry. -/
  | sameItem (delta : Fin 64) (item : VerificationType)
  | sameItemExtended (delta : UInt16) (item : VerificationType)
  /-- One more local is missing than `extra` says; the stack is empty. -/
  | chop (extra : Fin 3) (delta : UInt16)
  | sameExtended (delta : UInt16)
  /-- One to three further locals; the stack is empty. -/
  | append (delta : UInt16) (locals : List VerificationType)
  | full (delta : UInt16) (locals stack : List VerificationType)
  deriving DecidableEq, Repr

namespace StackMapFrame

/-- The first byte of a frame. -/
def tag : StackMapFrame → UInt8
  | .same delta => UInt8.ofNat delta.val
  | .sameItem delta _ => UInt8.ofNat (64 + delta.val)
  | .sameItemExtended .. => 247
  | .chop extra _ => UInt8.ofNat (250 - extra.val)
  | .sameExtended _ => 251
  | .append _ locals => UInt8.ofNat (251 + locals.length)
  | .full .. => 255

/-- One less than the distance from the frame before. -/
def delta : StackMapFrame → UInt16
  | .same delta => UInt16.ofNat delta.val
  | .sameItem delta _ => UInt16.ofNat delta.val
  | .sameItemExtended delta _ => delta
  | .chop _ delta => delta
  | .sameExtended delta => delta
  | .append delta _ => delta
  | .full delta _ _ => delta

/-- The locals a frame spells out. -/
def locals : StackMapFrame → List VerificationType
  | .append _ locals => locals
  | .full _ locals _ => locals
  | _ => []

/-- The stack of a frame. -/
def stack : StackMapFrame → List VerificationType
  | .sameItem _ item => [item]
  | .sameItemExtended _ item => [item]
  | .full _ _ stack => stack
  | _ => []

/-- The encoding of a frame. -/
def toBytes (frame : StackMapFrame) : Bytes :=
  frame.tag ::
    match frame with
    | .same _ => []
    | .sameItem _ item => item.toBytes
    | .sameItemExtended delta item => Bytes.ofUInt16 delta ++ item.toBytes
    | .chop _ delta => Bytes.ofUInt16 delta
    | .sameExtended delta => Bytes.ofUInt16 delta
    | .append delta locals => Bytes.ofUInt16 delta ++ locals.flatMap VerificationType.toBytes
    | .full delta locals stack =>
        Bytes.ofUInt16 delta ++ Bytes.counted16 VerificationType.toBytes locals ++
          Bytes.counted16 VerificationType.toBytes stack

/-- The rest of a frame with a given first byte. -/
def readFields (tag : UInt8) : Reader StackMapFrame :=
  let code := tag.toNat
  if small : code < 64 then pure (.same ⟨code, small⟩)
  else if item : code < 128 then do
    return .sameItem ⟨code - 64, by omega⟩ (← VerificationType.read)
  else if unused : code < 247 then Reader.fail .unknownTag
  else if extended : code = 247 then do
    let delta ← Reader.u16
    return .sameItemExtended delta (← VerificationType.read)
  else if chop : code < 251 then do
    return .chop ⟨250 - code, by omega⟩ (← Reader.u16)
  else if code = 251 then do
    return .sameExtended (← Reader.u16)
  else if code < 255 then do
    let delta ← Reader.u16
    return .append delta (← Reader.times (code - 251) VerificationType.read)
  else do
    let delta ← Reader.u16
    let locals ← Reader.counted16 VerificationType.read
    return .full delta locals (← Reader.counted16 VerificationType.read)

/-- A frame. -/
def read : Reader StackMapFrame := do
  let tag ← Reader.u8
  readFields tag

/-- The body of a stack map table. -/
def readTable : Reader (List StackMapFrame) :=
  Reader.counted16 read

/-- The encoding of a table. -/
def tableBytes (table : List StackMapFrame) : Bytes :=
  Bytes.counted16 toBytes table

end StackMapFrame

end ValueForm
