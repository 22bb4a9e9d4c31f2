import ValueForm.Flattening.Body
import ValueForm.Conversion.Descriptors

/-!
# Converting a class

Every method with code is analysed and, if the analysis took decisions,
flattened. A constructor keeps its code; only the arrays it creates change.
Afterwards the descriptors of the class follow. A class in which nothing refers
to a value-capable class is given back as it was.
-/

namespace ValueForm

/-- Choices for a conversion. -/
structure ConvertOptions where
  /-- Turn arrays of value-capable classes into arrays of values. -/
  flatArrays : Bool := true
  deriving DecidableEq, Repr

/-- The class an array creation names as its element, if it is a class. -/
def ConstantPool.elementClass? (pool : ConstantPool) (index : UInt16) : Option String := do
  let name ← pool.className? index
  let type ← FieldType.ofInternalName? name
  type.className?

/-- Let array creations of value-capable classes create arrays of values. The
instructions keep their length. `done` holds the instructions passed so far,
last one first; the last component tells whether one changed. -/
def substituteArrays : List Located → (done : List Instruction) → ConstantPool →
    (changed : Bool) → Inquiry ConvertError (List Instruction × ConstantPool × Bool)
  | [], done, pool, changed => return (done.reverse, pool, changed)
  | located :: rest, done, pool, changed =>
      match located.instruction with
      | .newReferenceArray index =>
          match pool.elementClass? index with
          | some element => do
              if ← Inquiry.capable .oracle element then
                let (index, pool) := pool.internClass (valueClassName element)
                substituteArrays rest (.newReferenceArray index :: done) pool true
              else
                substituteArrays rest (located.instruction :: done) pool changed
          | none => substituteArrays rest (located.instruction :: done) pool changed
      | instruction => substituteArrays rest (instruction :: done) pool changed

namespace MethodBody

/-- The code of a constructor, if it changes, and the pool. -/
def convertConstructor (body : MethodBody) (pool : ConstantPool) (options : ConvertOptions) :
    Inquiry ConvertError (Option CodeAttribute × ConstantPool) := do
  if options.flatArrays then
    let (instructions, pool, changed) ← substituteArrays body.instructions.toList [] pool false
    if changed then return (some { body.code with code := Code.encode instructions }, pool)
    else return (none, pool)
  else
    return (none, pool)

/-- The code of a method that is not a constructor, if it changes, and the
pool. -/
def convert (body : MethodBody) (classFile : ClassFile) (method : String)
    (options : ConvertOptions) : Inquiry ConvertError (Option CodeAttribute × ConstantPool) := do
  let analysis ← (body.analyze classFile options.flatArrays).mapError (.analysis method)
  if analysis.registry.isEmpty then return (none, classFile.pool)
  else do
    Inquiry.leave (.decisions method analysis.registry.size)
    match (body.flatten classFile.thisClass analysis).run { pool := classFile.pool } with
    | .ok code bench => do
        Inquiry.leaveAll bench.notes.reverse
        return (some code, bench.pool)
    | .error error bench => do
        Inquiry.leaveAll bench.notes.reverse
        Inquiry.fail (.flattening method error)

end MethodBody

/-- What a class or method without a readable name is called. -/
def unnamed : String := "?"

/-- The name of constructors. -/
def constructorName : String := "<init>"

namespace ClassFile

/-- The name of the class, for messages. -/
def displayName (classFile : ClassFile) : String :=
  classFile.thisClassName?.getD unnamed

/-- A method after conversion, if it changes, and the pool. -/
def convertMethod (classFile : ClassFile) (method : Member) (options : ConvertOptions) :
    Inquiry ConvertError (Option Member × ConstantPool) := do
  let pool := classFile.pool
  let className := classFile.displayName
  let name := (pool.text? method.name).getD unnamed
  match pool.text? method.descriptor with
  | none => Inquiry.fail (.unresolvedDescriptor className name)
  | some descriptor =>
      let qualified := className ++ "." ++ name ++ descriptor
      match method.attributes.findIdx? (·.isNamed pool Attribute.codeName) with
      | none => return (none, pool)
      | some position =>
          let info := (method.attributes[position]?.map (·.info)).getD []
          match CodeAttribute.read info with
          | .error error => Inquiry.fail (.malformedBody qualified error)
          | .ok (code, _) =>
              match Code.decode code.code with
              | .error error => Inquiry.fail (.code qualified error)
              | .ok instructions => do
                  let body : MethodBody :=
                    ⟨method.isStatic, descriptor, code, instructions.toArray⟩
                  let (converted, pool) ←
                    if name = constructorName then body.convertConstructor pool options
                    else body.convert classFile qualified options
                  match converted with
                  | none => return (none, pool)
                  | some code =>
                      let attributes := method.attributes.modify position fun item =>
                        { item with info := code.toBytes }
                      return (some { method with attributes }, pool)

/-- Convert methods in order; `done` holds those already converted, last one
first. The flag tells whether one changed. -/
def convertMethods (options : ConvertOptions) : List Member → (done : List Member) →
    (changed : Bool) → ClassFile → Inquiry ConvertError (ClassFile × Bool)
  | [], done, changed, classFile => return ({ classFile with methods := done.reverse }, changed)
  | method :: rest, done, changed, classFile => do
      let (converted, pool) ← classFile.convertMethod method options
      convertMethods options rest (converted.getD method :: done) (changed || converted.isSome)
        { classFile with pool }

/-- Convert a class file. -/
def convert (bytes : Bytes) (options : ConvertOptions) : Inquiry ConvertError Bytes := do
  let classFile ← Inquiry.ofExcept ((parse bytes).mapError .malformedClass)
  let (classFile, methodsChanged) ← convertMethods options classFile.methods [] false classFile
  let described ← if options.flatArrays then classFile.flattenDescriptors? else pure none
  if methodsChanged || described.isSome then do
    let converted := described.getD classFile
    Inquiry.leave (.classConverted classFile.displayName)
    return converted.syncCounts.toBytes
  else
    return bytes

end ClassFile

end ValueForm
