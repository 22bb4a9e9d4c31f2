import Std.Data.TreeMap
import ValueForm.ClassFile.Attribute
import ValueForm.Instruction.Branch

/-!
# Method bodies

A method body is its `Code` attribute together with the decoded instructions,
the descriptor and whether there is a receiver.
-/

namespace ValueForm

/-- A method body. -/
structure MethodBody where
  isStatic : Bool
  descriptor : String
  code : CodeAttribute
  instructions : Array Located

/-- The positions of instructions by address. -/
abbrev AddressMap := Std.TreeMap Nat Nat

/-- The positions of the instructions of a body. -/
def MethodBody.addresses (body : MethodBody) : AddressMap :=
  .ofList (body.instructions.toList.mapIdx fun index located => (located.address, index))

namespace AddressMap

/-- The position of the instruction at an address. -/
def position? (addresses : AddressMap) (target : Int) : Option Nat :=
  match target with
  | .ofNat address => addresses[address]?
  | .negSucc _ => none

end AddressMap

end ValueForm
