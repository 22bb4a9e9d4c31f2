import ValueForm.ClassFile.Basic
import ValueForm.ClassFile.Annotations

/-!
# Looking for a class-level annotation

`ClassFile.scanAnnotation` reads a class file only as far as it has to: members
are skipped, and the scan ends as soon as the annotation is seen. A fault inside
the body of an attribute of annotations is reported with the input that follows
that attribute.
-/

namespace ValueForm

/-- Pass over an attribute. -/
def Attribute.skip : Reader Unit := do
  discard Reader.u16
  let length ← Reader.u32
  discard (Reader.take length.toNat)

/-- Pass over a member. -/
def Member.skip : Reader Unit := do
  discard (Reader.take 6)
  discard (Reader.counted16 Attribute.skip)

/-- Whether an attribute holds class annotations. -/
def Attribute.holdsAnnotations (pool : ConstantPool) (item : Attribute) : Bool :=
  let name := pool.utf8Bytes? item.name
  name == some (Bytes.ofText AnnotationEntry.visibleTableName) ||
    name == some (Bytes.ofText AnnotationEntry.invisibleTableName)

namespace AnnotationEntry

/-- Whether one of the next `count` annotations has the type `descriptor`; the
annotations after the first such one are not read. -/
def anyOfType (pool : ConstantPool) (descriptor : Bytes) : (count : Nat) → Reader Bool
  | 0, input => .ok (false, input)
  | count + 1, input =>
      match read input with
      | .error error => .error error
      | .ok (entry, rest) =>
          if pool.utf8Bytes? entry.type == some descriptor then .ok (true, rest)
          else anyOfType pool descriptor count rest

/-- Whether the body of an attribute holds an annotation of type
`descriptor`. -/
def tableHasType (pool : ConstantPool) (descriptor : Bytes) : Reader Bool := do
  let count ← Reader.u16
  anyOfType pool descriptor count.toNat

end AnnotationEntry

namespace ClassFile

/-- Whether one of the next `count` class attributes holds an annotation of
type `descriptor`. -/
def scanAttributes (pool : ConstantPool) (descriptor : Bytes) : (count : Nat) → Reader Bool
  | 0, input => .ok (false, input)
  | count + 1, input =>
      match Attribute.read input with
      | .error error => .error error
      | .ok (item, rest) =>
          if item.holdsAnnotations pool then
            match AnnotationEntry.tableHasType pool descriptor item.info with
            | .error error => .error { error with rest }
            | .ok (true, _) => .ok (true, rest)
            | .ok (false, _) => scanAttributes pool descriptor count rest
          else
            scanAttributes pool descriptor count rest

/-- Whether the class at the front of the input carries an annotation of type
`descriptor`. -/
def scanAnnotation (descriptor : String) : Reader Bool := do
  Reader.magic magic
  discard (Reader.take 4)
  let pool ← ConstantPool.read
  discard (Reader.take 6)
  let interfaces ← Reader.u16
  discard (Reader.take (2 * interfaces.toNat))
  discard (Reader.counted16 Member.skip)
  discard (Reader.counted16 Member.skip)
  let attributes ← Reader.u16
  scanAttributes pool (Bytes.ofText descriptor) attributes.toNat

end ClassFile

end ValueForm
