import ValueForm.ClassFile.DebugTable
import ValueForm.Flattening.FrameMap

/-!
# Flattening a method body

The flattened body of a method after its analysis: emission, layout, and the
tables that refer to code addresses. Attributes that are not understood are
left out.
-/

namespace ValueForm

namespace Relocation

/-- The new address at an old one. -/
def pc (relocation : Relocation) (old : UInt16) : Except FlattenError UInt16 :=
  match relocation.boundary? old.toNat with
  | some address => .ok (UInt16.ofNat address)
  | none => .error (.invalidTarget old.toNat old.toNat)

/-- An entry of the exception table, moved. -/
def moveException (relocation : Relocation) (entry : ExceptionEntry) :
    Except FlattenError ExceptionEntry := do
  let start ← relocation.pc entry.start
  let stop ← relocation.pc entry.stop
  let handler ← relocation.pc entry.handler
  return { entry with start, stop, handler }

/-- An entry of a line number table, moved. -/
def moveLine (relocation : Relocation) (entry : LineNumber) : Except FlattenError LineNumber := do
  return { entry with start := ← relocation.pc entry.start }

/-- The end of the range of a local variable, cut off at the highest
address. -/
def variableEnd (item : LocalVariable) : UInt16 :=
  UInt16.ofNat (min (item.start.toNat + item.length.toNat) 65535)

/-- An item of a local variable table, moved. -/
def moveVariable (relocation : Relocation) (item : LocalVariable) :
    Except FlattenError LocalVariable := do
  let start ← relocation.pc item.start
  let stop ← relocation.pc (variableEnd item)
  return { item with start, length := UInt16.ofNat (stop.toNat - start.toNat) }

end Relocation

/-- A flattening after its layout. -/
structure FlattenedCode where
  frameMap : FrameMap
  thisClass : UInt16
  /-- The instructions that became jump targets. -/
  newTargets : List Nat

namespace FlattenedCode

/-- Read the body of an attribute; what follows it is ignored. -/
def readBody {α : Type} (name : String) (reader : Reader α) (item : Attribute) : Flatten α :=
  match reader item.info with
  | .ok (value, _) => pure value
  | .error _ => throw (.malformedAttribute name)

/-- The stack map table of the flattened body. -/
def stackMap (code : FlattenedCode) (item : Attribute) : Flatten (Option Attribute) := do
  let name := Attribute.stackMapTableName
  let table ← readBody name StackMapFrame.readTable item
  let descriptor := code.frameMap.body.descriptor
  let type ← Flatten.require (.invalidDescriptor descriptor) (MethodType.parse? descriptor)
  let initial ← code.frameMap.initialLocals code.thisClass type
  match ← code.frameMap.rebuild (.malformedAttribute name) table initial code.newTargets with
  | some table => return some { item with info := StackMapFrame.tableBytes table }
  | none => do
      Flatten.leave .noStackMap
      return none

/-- An attribute of the flattened body, if it is carried over. -/
def carryAttribute (code : FlattenedCode) (item : Attribute) : Flatten (Option Attribute) := do
  let name := ((← get).pool.text? item.name).getD ""
  let relocation := code.frameMap.relocation
  if name = Attribute.lineNumberTableName then do
    let table ← readBody name LineNumber.readTable item
    let moved ← Flatten.ofExcept (table.mapM relocation.moveLine)
    return some { item with info := LineNumber.tableBytes moved }
  else if name = Attribute.localVariableTableName ∨
      name = Attribute.localVariableTypeTableName then do
    let table ← readBody name LocalVariable.readTable item
    let moved ← Flatten.ofExcept (table.mapM relocation.moveVariable)
    return some { item with info := LocalVariable.tableBytes moved }
  else if name = Attribute.stackMapTableName then
    code.stackMap item
  else do
    Flatten.leave (.dropped name)
    return none

end FlattenedCode

/-- The flattened body of a method, after its analysis. `thisClass` is the
index of the class of the receiver. -/
def MethodBody.flatten (thisClass : UInt16) (body : MethodBody) (analysis : AnalysisResult) :
    Flatten CodeAttribute := do
  let emission ← Emission.ofBody body analysis.registry
  let relocation ← emission.layOut body.addresses body.code.code.length
  let instructions ← Flatten.ofExcept (emission.assemble relocation)
  let exceptions ← Flatten.ofExcept (body.code.exceptions.mapM relocation.moveException)
  let code : FlattenedCode := {
    frameMap := ⟨body, analysis, relocation⟩, thisClass,
    newTargets := emission.newTargets relocation.layout }
  let attributes ← body.code.attributes.mapM code.carryAttribute
  let needed : UInt16 := if emission.prologue.isEmpty then 0 else 1
  return {
    maxStack := max body.code.maxStack needed
    maxLocals := body.code.maxLocals
    code := Code.encode instructions
    exceptions
    attributes := attributes.filterMap id }

end ValueForm
