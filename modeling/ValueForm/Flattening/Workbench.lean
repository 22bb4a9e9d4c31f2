import ValueForm.ClassFile.Pool
import ValueForm.Note

/-!
# The workbench of a flattening

Flattening a method body adds constants to the pool of its class and leaves
notes. Both survive a failure: the constants added and the notes left before it
are still there.
-/

namespace ValueForm

/-- Why a method body cannot be flattened. Addresses are those of the
instruction at fault in the body before. -/
inductive FlattenError where
  /-- A moved jump does not fit the encoding of its instruction. -/
  | branchOutOfRange (address : Nat)
  | invalidTarget (address : Nat) (target : Int)
  | invalidDescriptor (descriptor : String)
  | codeTooLarge (length : Nat)
  | malformedAttribute (name : String)
  | unresolved (address : Nat) (index : UInt16)
  deriving DecidableEq, Repr

/-- The failure in words. -/
def FlattenError.message : FlattenError → String
  | .branchOutOfRange address => s!"branch at {address} is out of range after rewriting"
  | .invalidTarget address target => s!"branch at {address} targets {target}"
  | .invalidDescriptor descriptor => "invalid descriptor " ++ descriptor
  | .codeTooLarge length => s!"rewritten code is {length} bytes long"
  | .malformedAttribute name => "malformed " ++ name ++ " attribute"
  | .unresolved address index =>
      s!"at {address}: constant pool entry {index.toNat} cannot be resolved"

/-- The pool under work, and the notes so far, last one first. -/
structure Workbench where
  pool : ConstantPool
  notes : List Note := []

/-- A step of a flattening. -/
abbrev Flatten := EStateM FlattenError Workbench

namespace Flatten

/-- Leave a note. -/
def leave (entry : Note) : Flatten Unit :=
  modify fun bench => { bench with notes := entry :: bench.notes }

/-- The index of a class constant. -/
def internClass (name : String) : Flatten UInt16 :=
  modifyGet fun bench =>
    let (index, pool) := bench.pool.internClass name
    (index, { bench with pool })

/-- The index of a field reference. -/
def internField (field : MemberRef) : Flatten UInt16 :=
  modifyGet fun bench =>
    let (index, pool) := bench.pool.internField field
    (index, { bench with pool })

/-- Go on with a value that must be there. -/
def require {α : Type} (error : FlattenError) : Option α → Flatten α
  | some value => pure value
  | none => throw error

/-- A step that needs no workbench. -/
def ofExcept {α : Type} : Except FlattenError α → Flatten α
  | .ok value => pure value
  | .error error => throw error

end Flatten

end ValueForm
