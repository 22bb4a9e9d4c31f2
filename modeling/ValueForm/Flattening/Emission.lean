import ValueForm.Descriptor.Flattened
import ValueForm.Instruction.Branch
import ValueForm.Analysis.Registry
import ValueForm.Analysis.Body
import ValueForm.Flattening.Workbench

/-!
# Emission

Which instructions stand in the flattened body, before they are laid out: a
prologue that converts the incoming values kept as values, and then for every
instruction of the body a segment. Branches keep their offsets from the body
before and are marked, so that the layout can move them.
-/

namespace ValueForm

/-- A part of a segment. -/
inductive Piece where
  /-- An instruction that does not depend on where it stands. -/
  | fixed (instruction : Instruction)
  /-- A branch, with the address it had in the body before. -/
  | branch (instruction : Instruction) (address : Nat)
  deriving DecidableEq, Repr

/-- An instruction of the body, kept. -/
def Piece.keep (located : Located) : Piece :=
  if located.instruction.isBranch then .branch located.instruction located.address
  else .fixed located.instruction

/-- The code of a flattened body before layout. -/
structure Emission where
  prologue : List Instruction
  /-- One segment for every instruction of the body before, in order. -/
  segments : Array (List Piece)

namespace Emission

/-- Turn the value on the stack into a reference. -/
def box (className : String) : Flatten Piece := do
  return .fixed (.box (← Flatten.internClass className))

/-- Turn the reference on the stack into a value. -/
def unbox (className : String) : Flatten Piece := do
  return .fixed (.unbox (← Flatten.internClass (valueClassName className)))

/-- The change of form that follows the action of a patch. -/
def change (patch : Patch) : Flatten (List Piece) :=
  match patch.change? with
  | some .box => return [← box patch.className]
  | some .unbox => return [← unbox patch.className]
  | none => return []

/-- Load a slot. A slot that was left holding a reference is loaded as one. -/
def load (registry : Registry) (patch : Patch) (located : Located) (slot : UInt16)
    (contents : SiteSet) : Flatten (List Piece) := do
  if registry.anyForced contents then
    if patch.forced then return [.keep located]
    else return [.keep located, ← unbox patch.className]
  else
    return .fixed (.loadValue slot) :: (← change patch)

/-- Store into a slot, changing the form of the operand if the slot holds the
other one. -/
def store (registry : Registry) (patch : Patch) (located : Located) (slot : UInt16)
    (operand : SiteSet) : Flatten (List Piece) := do
  let isReference := registry.anyForced operand
  if patch.forced then
    if isReference then return [.keep located]
    else return [← box patch.className, .keep located]
  else
    if isReference then return [← unbox patch.className, .fixed (.storeValue slot)]
    else return [.fixed (.storeValue slot)]

/-- Read a field. Of a value it is read through the value class. -/
def fieldRead (registry : Registry) (patch : Patch) (located : Located) (receiver : SiteSet) :
    Flatten (List Piece) := do
  let read ←
    match located.instruction with
    | .getField index =>
        if registry.anyForced receiver then pure (Piece.keep located)
        else do
          let pool := (← get).pool
          let field ← Flatten.require (.unresolved located.address index) (pool.member? index)
          let owner := valueClassName field.owner
          pure (.fixed (.getField (← Flatten.internField { field with owner })))
    | _ => pure (Piece.keep located)
  return read :: (← change patch)

/-- Store into an array of values. -/
def arrayStore (registry : Registry) (patch : Patch) (operand : Option SiteSet) :
    Flatten (List Piece) := do
  let isReference :=
    match operand with
    | some sites => registry.anyForced sites
    | none => true
  if isReference then return [← unbox patch.className, .fixed .valueArrayStore]
  else return [.fixed .valueArrayStore]

/-- The segment of an instruction with a patch. -/
def patched (registry : Registry) (patch : Patch) (located : Located) : Flatten (List Piece) := do
  match patch.action with
  | .keep | .entryUnbox _ => return .keep located :: (← change patch)
  | .valueLoad slot contents => load registry patch located slot contents
  | .valueStore slot operand => store registry patch located slot operand
  | .fieldRead receiver => fieldRead registry patch located receiver
  | .arrayNew element =>
      return [.fixed (.newReferenceArray (← Flatten.internClass (valueClassName element)))]
  | .arrayLoad => return .fixed .valueArrayLoad :: (← change patch)
  | .arrayStore operand => arrayStore registry patch operand

/-- The segment of an instruction. -/
def segment (registry : Registry) (index : Nat) (located : Located) : Flatten (List Piece) :=
  match registry.get? (.instruction index) with
  | some patch => patched registry patch located
  | none => return [.keep located]

/-- The conversion of an incoming reference in a slot. -/
def convertSlot (slot : UInt16) (className : String) : Flatten (List Instruction) := do
  let index ← Flatten.internClass (valueClassName className)
  return [.loadReference slot, .unbox index, .storeValue slot]

/-- The conversions at entry, for the slots that are not forced. -/
def prologueOf (registry : Registry) : Flatten (List Instruction) := do
  let slots := registry.entryConversions.filter fun (_, _, forced) => !forced
  let conversions ← slots.mapM fun (slot, className, _) => convertSlot slot className
  return conversions.flatten

/-- The code of a body after its analysis. -/
def ofBody (body : MethodBody) (registry : Registry) : Flatten Emission := do
  let prologue ← prologueOf registry
  let segments ← body.instructions.mapIdxM (segment registry)
  return { prologue, segments }

end Emission

end ValueForm
