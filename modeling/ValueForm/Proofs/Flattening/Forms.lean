import ValueForm.Proofs.Analysis.Provenance
import ValueForm.Proofs.Flattening.Plan

/-!
# Forms

An instance of a value-capable class is held either as a reference or as a
value. A `Form` says which of the two an entry of the machine has at a point of
the flattened code. An instruction that is not in value form hands instances on
to code that knows only references, so `Instruction.keep` fails where it finds a
value. `Forms.run` runs the pieces that stand for an instruction, with the pool
that they were emitted with, and knows nothing of what was planned for them.
-/

namespace ValueForm

/-- How an entry is held. -/
inductive Form where
  /-- An instance of a value-capable class, as a reference. -/
  | reference
  /-- An instance of a value-capable class, as a value. -/
  | value
  /-- One of the two, depending on the path. -/
  | mixed
  /-- Null, or a reference to something that could not be a value. -/
  | otherReference
  /-- Anything else that could not be a value: a number, nothing usable, or
  something of which no more is known. -/
  | plain (wide : Bool)
  deriving DecidableEq

namespace Form

/-- Whether an entry counts as two words. -/
def isWide : Form → Bool
  | .plain wide => wide
  | _ => false

/-- Whether an entry is known to be a reference. -/
def isReference : Form → Bool
  | .reference | .otherReference => true
  | .value | .mixed | .plain _ => false

/-- Whether an entry may be used where no value may be. -/
def passes : Form → Bool
  | .reference | .otherReference | .plain _ => true
  | .value | .mixed => false

/-- Whether an entry is an instance of a value-capable class. -/
def isInstance : Form → Bool
  | .reference | .value | .mixed => true
  | .otherReference | .plain _ => false

/-- Whether an entry held in one way may stand where another is expected. -/
def Fits (actual : Form) : Form → Prop
  | .reference => actual = .reference
  | .value => actual = .value
  | .mixed => actual.isInstance = true
  | .otherReference => actual.isReference = true
  | .plain _ => actual.passes = true

theorem passes_of_isReference {form : Form} (isReference : form.isReference = true) :
    form.passes = true := by
  cases form with
  | reference | otherReference => rfl
  | value | mixed | plain => cases isReference

theorem Fits.trans {first second third : Form} (earlier : first.Fits second)
    (later : second.Fits third) : first.Fits third := by
  cases third with
  | reference | value =>
      cases later
      exact earlier
  | mixed =>
      cases second with
      | reference | value =>
          cases earlier
          rfl
      | mixed => exact earlier
      | otherReference | plain => cases later
  | otherReference =>
      cases second with
      | reference =>
          cases earlier
          rfl
      | otherReference => exact earlier
      | value | mixed | plain => cases later
  | plain wide =>
      cases second with
      | reference =>
          cases earlier
          rfl
      | otherReference => exact passes_of_isReference earlier
      | plain => exact earlier
      | value | mixed => cases later

end Form

/-- What an instruction leaves, as the machine holds it. -/
def Leaves.forms : Leaves → List Form
  | .reference => [.otherReference]
  | .plain wide => [.plain wide]
  | .capable _ .value => [.value]
  | .capable _ .object => [.reference]
  | .nothing | .capable _ .nothing => []

/-- How the locals and the entries of the stack are held. -/
structure Forms where
  locals : Array Form
  /-- The operand stack, top first. -/
  stack : List Form
  deriving DecidableEq

namespace Forms

/-- Every entry may stand where another is expected. -/
structure Fits (actual expected : Forms) : Prop where
  size : actual.locals.size = expected.locals.size
  height : actual.stack.length = expected.stack.length
  locals : ∀ (index : Nat) (form other : Form), actual.locals[index]? = some form →
    expected.locals[index]? = some other → form.Fits other
  stack : ∀ (index : Nat) (form other : Form), actual.stack[index]? = some form →
    expected.stack[index]? = some other → form.Fits other

theorem Fits.trans {first second third : Forms} (earlier : first.Fits second)
    (later : second.Fits third) : first.Fits third := by
  constructor
  · exact earlier.size.trans later.size
  · exact earlier.height.trans later.height
  · intro index form other atIndex atIndex'
    have inRange : index < second.locals.size :=
      earlier.size ▸ (Array.getElem?_eq_some_iff.1 atIndex).1
    have between := Array.getElem?_eq_getElem inRange
    exact (earlier.locals index form _ atIndex between).trans
      (later.locals index _ other between atIndex')
  · intro index form other atIndex atIndex'
    have inRange : index < second.stack.length :=
      earlier.height ▸ (List.getElem?_eq_some_iff.1 atIndex).1
    have between := List.getElem?_eq_getElem inRange
    exact (earlier.stack index form _ atIndex between).trans
      (later.stack index _ other between atIndex')

/-- Put an entry into a local slot. Overwriting the second half of a wide entry
makes its first half unusable. -/
def setLocal (forms : Forms) (slot : UInt16) (form : Form) : Option Forms :=
  let last := if form.isWide then slot.toNat + 1 else slot.toNat
  if forms.locals.size ≤ last then none
  else some { forms with
    locals := forms.locals.mapIdx fun index old =>
      if index = slot.toNat then form
      else if (index = slot.toNat + 1 ∧ form.isWide) ∨ (index + 1 = slot.toNat ∧ old.isWide) then
        .plain false
      else old }

/-- Take operands off the stack, top first; those that are marked have to pass
as references. -/
def takeOperands : (marks : List Bool) → (stack : List Form) → Option (List Form)
  | [], stack => some stack
  | _ :: _, [] => none
  | mark :: marks, form :: stack =>
      if mark ∧ form.passes = false then none else takeOperands marks stack

/-- Turn the value on top of the stack into a reference. -/
def box : Forms → Option Forms
  | ⟨locals, .value :: rest⟩ => some ⟨locals, .reference :: rest⟩
  | _ => none

/-- Turn the reference on top of the stack into a value. -/
def unbox : Forms → Option Forms
  | ⟨locals, form :: rest⟩ =>
      if form.isReference then some ⟨locals, .value :: rest⟩ else none
  | _ => none

@[simp]
theorem box_cons_value (locals : Array Form) (rest : List Form) :
    box ⟨locals, .value :: rest⟩ = some ⟨locals, .reference :: rest⟩ :=
  rfl

@[simp]
theorem unbox_cons (locals : Array Form) (form : Form) (rest : List Form) :
    unbox ⟨locals, form :: rest⟩ =
      if form.isReference then some ⟨locals, .value :: rest⟩ else none :=
  rfl

/-- Load a value from a local slot. -/
def loadValue (slot : UInt16) (forms : Forms) : Option Forms :=
  if forms.locals[slot.toNat]? = some .value then
    some { forms with stack := .value :: forms.stack }
  else none

/-- Store a value into a local slot. -/
def storeValue (slot : UInt16) : Forms → Option Forms
  | ⟨locals, .value :: rest⟩ => setLocal ⟨locals, rest⟩ slot .value
  | _ => none

/-- Read something from the value on top of the stack. -/
def readValue (read : Leaves) : Forms → Option Forms
  | ⟨locals, .value :: rest⟩ => some ⟨locals, read.forms ++ rest⟩
  | _ => none

/-- Load a value from an array. -/
def loadElement : Forms → Option Forms
  | ⟨locals, _ :: array :: rest⟩ =>
      if array.isReference then some ⟨locals, .value :: rest⟩ else none
  | _ => none

/-- Store a value into an array. -/
def storeElement : Forms → Option Forms
  | ⟨locals, .value :: _ :: array :: rest⟩ =>
      if array.isReference then some ⟨locals, rest⟩ else none
  | _ => none

end Forms

namespace Instruction

/-- Run an instruction that is not in value form. -/
def keep (pool : ConstantPool) (capable : String → Bool) (instruction : Instruction)
    (forms : Forms) : Option Forms :=
  match instruction.signature? pool capable with
  | some signature => do
      let rest ← Forms.takeOperands signature.operands.reverse forms.stack
      return { forms with stack := signature.leaves.forms ++ rest }
  | none =>
  match instruction.localLoad? with
  | some (kind, slot) => do
      let held ← forms.locals[slot.toNat]?
      let form := if kind = .reference then held else .plain kind.value.isWide
      if form.passes then some { forms with stack := form :: forms.stack } else none
  | none =>
  match instruction.localStore?, forms.stack with
  | some (kind, slot), held :: rest =>
      let form := if kind = .reference then held else .plain kind.value.isWide
      if form.passes then Forms.setLocal { forms with stack := rest } slot form else none
  | some _, [] => none
  | none, _ =>
  match instruction.incremented? with
  | some slot => forms.setLocal slot (.plain false)
  | none =>
  match instruction with
  | .stack op => do
      let shuffled ← op.shuffle Form.isWide forms.stack
      return { forms with stack := shuffled }
  | _ => none

end Instruction

/-- Whether a name is that of a value class. -/
def isValueClassName (name : String) : Bool :=
  ";Q".toList.isPrefixOf name.toList && "$Value;".toList.isSuffixOf name.toList

namespace ConstantPool

/-- Whether an index names the field that an instruction reads, in the value class
of its owner. -/
def readsThroughValueClass (pool : ConstantPool) (source : Instruction) (index : UInt16) : Bool :=
  match source with
  | .getField original =>
      match pool.member? original, pool.member? index with
      | some field, some moved => moved = { field with owner := valueClassName field.owner }
      | _, _ => false
  | _ => false

end ConstantPool

namespace Instruction

/-- Run an instruction that stands for another one in flattened code. Its
constants have to resolve: to a class where a value becomes a reference, and to a
value class where a reference becomes a value. -/
def run (pool : ConstantPool) (capable : String → Bool) (instruction source : Instruction)
    (forms : Forms) : Option Forms :=
  match instruction with
  | .box index => if (pool.className? index).isSome then forms.box else none
  | .unbox index => if (pool.className? index).any isValueClassName then forms.unbox else none
  | .valueLoad slot => forms.loadValue slot.slot
  | .valueStore slot => forms.storeValue slot.slot
  | .valueArrayLoad => forms.loadElement
  | .valueArrayStore => forms.storeElement
  | .getField index =>
      if pool.readsThroughValueClass source index then do
        let type ← pool.fieldType? index
        forms.readValue (.ofType capable .value type)
      else instruction.keep pool capable forms
  | _ => instruction.keep pool capable forms

variable (pool : ConstantPool) (capable : String → Bool) (source : Instruction) (forms : Forms)

@[simp]
theorem run_box (index : UInt16) :
    (box index).run pool capable source forms =
      if (pool.className? index).isSome then forms.box else none :=
  rfl

@[simp]
theorem run_unbox (index : UInt16) :
    (unbox index).run pool capable source forms =
      if (pool.className? index).any isValueClassName then forms.unbox else none :=
  rfl

@[simp]
theorem run_valueLoad (slot : SlotOperand) :
    (valueLoad slot).run pool capable source forms = forms.loadValue slot.slot :=
  rfl

@[simp]
theorem run_valueStore (slot : SlotOperand) :
    (valueStore slot).run pool capable source forms = forms.storeValue slot.slot :=
  rfl

@[simp]
theorem run_getField (index : UInt16) :
    (getField index).run pool capable source forms =
      if pool.readsThroughValueClass source index then
        (pool.fieldType? index).bind fun type => forms.readValue (.ofType capable .value type)
      else (getField index).keep pool capable forms :=
  rfl

end Instruction

/-- The instruction of a piece. -/
def Piece.instruction : Piece → Instruction
  | .fixed instruction => instruction
  | .branch instruction _ => instruction

/-- Run what stands for an instruction in flattened code. -/
def Forms.run (pool : ConstantPool) (capable : String → Bool) (source : Instruction)
    (forms : Forms) (pieces : List Piece) : Option Forms :=
  pieces.foldlM (fun forms piece => piece.instruction.run pool capable source forms) forms

end ValueForm
