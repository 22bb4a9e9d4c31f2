import ValueForm.Flattening.Emission
import ValueForm.Proofs.Analysis.Worklist

/-!
# What stands for an instruction

The segment of an instruction is the instruction or its counterpart in value
form, with at most one conversion before it and at most one after it. `Plan`
has exactly that shape, and `Registry.plan` reads the plan of an instruction off
the decisions. Emission carries out the plan.
-/

namespace ValueForm

/-- A change of the form of the instance on top of the stack. -/
structure Conversion where
  change : FormChange
  className : String
  deriving DecidableEq

/-- What takes the place of an instruction. -/
inductive Counterpart where
  /-- The instruction itself. -/
  | kept
  | loadValue (slot : UInt16)
  | storeValue (slot : UInt16)
  /-- Read the field at an index through the value class of its owner. -/
  | readValue (index : UInt16)
  /-- Create an array of values. -/
  | createArray (element : String)
  | loadElement
  | storeElement
  deriving DecidableEq

/-- What stands for an instruction in flattened code. -/
structure Plan where
  before : Option Conversion
  main : Counterpart
  after : Option Conversion
  deriving DecidableEq

/-- The conversion that follows the action of a patch. -/
def Patch.conversion? (patch : Patch) : Option Conversion :=
  patch.change?.map fun change => ⟨change, patch.className⟩

/-- What stands for an instruction with a patch. -/
def Patch.plan (registry : Registry) (patch : Patch) (instruction : Instruction) : Plan :=
  match patch.action with
  | .keep | .entryUnbox _ => ⟨none, .kept, patch.conversion?⟩
  | .valueLoad slot contents =>
      if registry.anyForced contents then
        ⟨none, .kept, if patch.forced then none else some ⟨.unbox, patch.className⟩⟩
      else ⟨none, .loadValue slot, patch.conversion?⟩
  | .valueStore slot operand =>
      if patch.forced then
        ⟨if registry.anyForced operand then none else some ⟨.box, patch.className⟩, .kept, none⟩
      else
        ⟨if registry.anyForced operand then some ⟨.unbox, patch.className⟩ else none,
          .storeValue slot, none⟩
  | .fieldRead receiver =>
      match instruction with
      | .getField index =>
          ⟨none, if registry.anyForced receiver then .kept else .readValue index,
            patch.conversion?⟩
      | _ => ⟨none, .kept, patch.conversion?⟩
  | .arrayNew element => ⟨none, .createArray element, none⟩
  | .arrayLoad => ⟨none, .loadElement, patch.conversion?⟩
  | .arrayStore none => ⟨some ⟨.unbox, patch.className⟩, .storeElement, none⟩
  | .arrayStore (some operand) =>
      ⟨if registry.anyForced operand then some ⟨.unbox, patch.className⟩ else none,
        .storeElement, none⟩

/-- What stands for an instruction at a position. -/
def Registry.plan (registry : Registry) (index : Nat) (instruction : Instruction) : Plan :=
  match registry.get? (.instruction index) with
  | some patch => patch.plan registry instruction
  | none => ⟨none, .kept, none⟩

/-- A retired patch leaves its instruction as it is. -/
theorem Patch.Retired.plan_eq {patch : Patch} (retired : patch.Retired) (registry : Registry)
    (instruction : Instruction) : patch.plan registry instruction = ⟨none, .kept, none⟩ := by
  rcases retired with ⟨action, left, _⟩
  simp [Patch.plan, action, Patch.conversion?, Patch.change?, left, LeftForm.change?]

/-- Emit a conversion. -/
def Conversion.emit (conversion : Conversion) : Flatten Piece :=
  match conversion.change with
  | .box => Emission.box conversion.className
  | .unbox => Emission.unbox conversion.className

/-- Emit what takes the place of an instruction. -/
def Counterpart.emit (located : Located) : Counterpart → Flatten Piece
  | .kept => return .keep located
  | .loadValue slot => return .fixed (.loadValue slot)
  | .storeValue slot => return .fixed (.storeValue slot)
  | .readValue index => do
      let pool := (← get).pool
      let field ← Flatten.require (.unresolved located.address index) (pool.member? index)
      let owner := valueClassName field.owner
      return .fixed (.getField (← Flatten.internField { field with owner }))
  | .createArray element =>
      return .fixed (.newReferenceArray (← Flatten.internClass (valueClassName element)))
  | .loadElement => return .fixed .valueArrayLoad
  | .storeElement => return .fixed .valueArrayStore

/-- Emit what stands for an instruction. -/
def Plan.emit (located : Located) (plan : Plan) : Flatten (List Piece) := do
  let before ← plan.before.toList.mapM Conversion.emit
  let main ← plan.main.emit located
  let after ← plan.after.toList.mapM Conversion.emit
  return before ++ main :: after

namespace Emission

variable (registry : Registry) (patch : Patch) (located : Located)

theorem change_eq_mapM : change patch = patch.conversion?.toList.mapM Conversion.emit := by
  unfold change Patch.conversion?
  cases patch.change? with
  | none => simp
  | some change => cases change <;> simp [Conversion.emit]

theorem load_eq_emit (slot : UInt16) (contents : SiteSet)
    (isLoad : patch.action = .valueLoad slot contents) :
    load registry patch located slot contents =
      (patch.plan registry located.instruction).emit located := by
  unfold load Patch.plan Plan.emit
  rw [isLoad, change_eq_mapM]
  by_cases isReference : registry.anyForced contents <;> by_cases forced : patch.forced <;>
    simp [isReference, forced, Counterpart.emit, Conversion.emit]

theorem store_eq_emit (slot : UInt16) (operand : SiteSet)
    (isStore : patch.action = .valueStore slot operand) :
    store registry patch located slot operand =
      (patch.plan registry located.instruction).emit located := by
  unfold store Patch.plan Plan.emit
  rw [isStore]
  by_cases isReference : registry.anyForced operand <;> by_cases forced : patch.forced <;>
    simp [isReference, forced, Counterpart.emit, Conversion.emit]

theorem fieldRead_eq_emit (receiver : SiteSet) (isRead : patch.action = .fieldRead receiver) :
    fieldRead registry patch located receiver =
      (patch.plan registry located.instruction).emit located := by
  unfold fieldRead Patch.plan Plan.emit
  rw [isRead, change_eq_mapM]
  cases located.instruction with
  | getField index =>
      by_cases isReference : registry.anyForced receiver <;> simp [isReference, Counterpart.emit]
  | _ => simp [Counterpart.emit]

theorem arrayStore_eq_emit (operand : Option SiteSet)
    (isStore : patch.action = .arrayStore operand) :
    arrayStore registry patch operand =
      (patch.plan registry located.instruction).emit located := by
  unfold arrayStore Patch.plan Plan.emit
  rw [isStore]
  cases operand with
  | none => simp [Counterpart.emit, Conversion.emit]
  | some sites =>
      by_cases isReference : registry.anyForced sites <;>
        simp [isReference, Counterpart.emit, Conversion.emit]

theorem patched_eq_emit :
    patched registry patch located = (patch.plan registry located.instruction).emit located := by
  unfold patched
  cases action : patch.action with
  | valueLoad slot contents => exact load_eq_emit registry patch located slot contents action
  | valueStore slot operand => exact store_eq_emit registry patch located slot operand action
  | fieldRead receiver => exact fieldRead_eq_emit registry patch located receiver action
  | arrayStore operand => exact arrayStore_eq_emit registry patch located operand action
  | keep | entryUnbox | arrayNew | arrayLoad =>
      simp [change_eq_mapM, Patch.plan, action, Plan.emit, Counterpart.emit]

/-- Emission carries out the plan. -/
theorem segment_eq_emit (index : Nat) :
    segment registry index located =
      (registry.plan index located.instruction).emit located := by
  unfold segment Registry.plan
  cases registry.get? (.instruction index) with
  | none => simp [Plan.emit, Counterpart.emit]
  | some patch => exact patched_eq_emit registry patch located

end Emission

end ValueForm
