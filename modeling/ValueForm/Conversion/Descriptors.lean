import Std.Data.TreeMap
import Std.Data.TreeSet
import ValueForm.ClassFile.DebugTable
import ValueForm.Descriptor.Flattened
import ValueForm.Inquiry
import ValueForm.Conversion.Error

/-!
# Flattened descriptors in a class

Every array of a value-capable class that a descriptor of the class mentions is
described in its flattened form. A changed descriptor gets a text entry of its
own, so that an entry that is also used for something else keeps its text; what
used the old entry as a descriptor is pointed to the new one.
-/

namespace ValueForm

/-- Whether an attribute has a name. -/
def Attribute.isNamed (pool : ConstantPool) (name : String) (item : Attribute) : Bool :=
  pool.text? item.name == some name

/-- The descriptors a code body uses in its tables of local variables. -/
def CodeAttribute.descriptorIndices (pool : ConstantPool) (code : CodeAttribute) :
    Except ConvertError (List UInt16) := do
  let tables := code.attributes.filter (·.isNamed pool Attribute.localVariableTableName)
  let indices ← tables.mapM fun table =>
    match LocalVariable.readTable table.info with
    | .ok (items, _) => .ok (items.map (·.descriptor))
    | .error error => .error (.malformedVariables error)
  return indices.flatten

/-- The descriptors a method uses in its code. -/
def Member.codeDescriptorIndices (pool : ConstantPool) (method : Member) :
    Except ConvertError (List UInt16) := do
  let bodies := method.attributes.filter (·.isNamed pool Attribute.codeName)
  let indices ← bodies.mapM fun item =>
    match CodeAttribute.read item.info with
    | .ok (code, _) => code.descriptorIndices pool
    | .error error => .error (.malformedCode error)
  return indices.flatten

/-- The descriptor a constant uses, if it uses one. -/
def ConstantPool.descriptorIndex? (pool : ConstantPool) (constant : Constant) : Option UInt16 :=
  match constant with
  | .nameAndType _ descriptor => some descriptor
  | .methodType descriptor => some descriptor
  | .classRef name => if pool.namesArrayClass constant then some name else none
  | _ => none

/-- A new index for some text entries. -/
abbrev IndexMap := Std.TreeMap UInt16 UInt16

namespace IndexMap

/-- The new index, where there is one. -/
def apply (indices : IndexMap) (index : UInt16) : UInt16 :=
  indices[index]?.getD index

/-- A member with its descriptor replaced. -/
def onMember (indices : IndexMap) (member : Member) : Member :=
  { member with descriptor := indices.apply member.descriptor }

/-- A constant with its descriptor replaced; `pool` tells which classes are
array classes. -/
def onConstant (indices : IndexMap) (pool : ConstantPool) (constant : Constant) : Constant :=
  match constant with
  | .nameAndType name descriptor => .nameAndType name (indices.apply descriptor)
  | .methodType descriptor => .methodType (indices.apply descriptor)
  | .classRef name =>
      if pool.namesArrayClass constant then .classRef (indices.apply name) else constant
  | other => other

/-- A table of local variables with the descriptors replaced, and whether one
of them was. -/
def onVariables (indices : IndexMap) (item : Attribute) : Except ConvertError (Attribute × Bool) :=
  match LocalVariable.readTable item.info with
  | .error error => .error (.malformedVariables error)
  | .ok (table, _) =>
      let moved := table.map fun row => { row with descriptor := indices.apply row.descriptor }
      let touched := table.any fun row => indices.contains row.descriptor
      .ok ({ item with info := LocalVariable.tableBytes moved }, touched)

/-- A `Code` attribute with the descriptors in its tables of local variables,
named by `tableName`, replaced. It stays as it is when none of them is. -/
def onCode (indices : IndexMap) (tableName : UInt16) (item : Attribute) :
    Except ConvertError Attribute :=
  match CodeAttribute.read item.info with
  | .error error => .error (.malformedCode error)
  | .ok (code, _) => do
      let attributes : List (Attribute × Bool) ← code.attributes.mapM fun table =>
        if table.name = tableName then indices.onVariables table else .ok (table, false)
      let replaced : CodeAttribute := { code with attributes := attributes.map (·.1) }
      if attributes.any (·.2) then
        return { item with info := replaced.toBytes }
      else
        return item

/-- A method with the descriptors in its code replaced. -/
def onMethodCode (indices : IndexMap) (codeName tableName : UInt16) (method : Member) :
    Except ConvertError Member := do
  let attributes ← method.attributes.mapM fun item =>
    if item.name = codeName then indices.onCode tableName item else .ok item
  return { method with attributes }

end IndexMap

namespace ClassFile

/-- The text entries used as descriptors anywhere in a class, in increasing
order. -/
def descriptorIndices (classFile : ClassFile) : Except ConvertError (List UInt16) := do
  let members := (classFile.fields ++ classFile.methods).map (·.descriptor)
  let constants := classFile.pool.entries.toList.filterMap classFile.pool.descriptorIndex?
  let debugged ← classFile.methods.mapM (·.codeDescriptorIndices classFile.pool)
  return (Std.TreeSet.ofList (members ++ constants ++ debugged.flatten)).toList

/-- The descriptors that change, with their new texts; `done` holds those found
so far, last one first. -/
def changedDescriptors (pool : ConstantPool) : List UInt16 → (done : List (UInt16 × String)) →
    Inquiry ConvertError (List (UInt16 × String))
  | [], done => return done.reverse
  | index :: rest, done => do
      let changed ←
        match pool.text? index with
        | some text => flattenDescriptor (Inquiry.capable .oracle) text
        | none => pure none
      match changed with
      | some text => changedDescriptors pool rest ((index, text) :: done)
      | none => changedDescriptors pool rest done

/-- Enter the new texts into the pool. -/
def internTexts (pool : ConstantPool) (changes : List (UInt16 × String)) :
    IndexMap × ConstantPool :=
  changes.foldl
    (fun (indices, pool) (old, text) =>
      let (new, pool) := pool.internText text
      (indices.insert old new, pool))
    ({}, pool)

/-- A class with new texts for some descriptors. -/
def replaceDescriptors (classFile : ClassFile) (changes : List (UInt16 × String)) :
    Except ConvertError ClassFile := do
  let (indices, pool) := internTexts classFile.pool changes
  let entries := pool.entries.map (indices.onConstant pool)
  let methods := classFile.methods.map indices.onMember
  let methods ←
    match pool.textIndex? Attribute.codeName, pool.textIndex? Attribute.localVariableTableName with
    | some codeName, some tableName => methods.mapM (indices.onMethodCode codeName tableName)
    | _, _ => .ok methods
  return { classFile with
    pool := { pool with entries }, fields := classFile.fields.map indices.onMember, methods }

/-- The class with flattened descriptors, or nothing when no descriptor
changes. -/
def flattenDescriptors? (classFile : ClassFile) : Inquiry ConvertError (Option ClassFile) := do
  let indices ← Inquiry.ofExcept classFile.descriptorIndices
  match ← changedDescriptors classFile.pool indices [] with
  | [] => return none
  | changes => return some (← Inquiry.ofExcept (classFile.replaceDescriptors changes))

end ClassFile

end ValueForm
