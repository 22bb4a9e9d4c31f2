import ValueForm.Oracle
import ValueForm.Analysis.Frame

/-!
# Failures of the analysis
-/

namespace ValueForm

/-- Why a method body cannot be analysed. Addresses are those of the
instruction at fault. -/
inductive AnalysisError where
  /-- A monitor is entered or left on a value-capable operand. -/
  | monitorOnValue (address : Nat)
  | frame (address : Nat) (error : FrameError)
  | unresolved (address : Nat) (index : UInt16)
  | invalidDescriptor (descriptor : String)
  | invalidTarget (address : Nat) (target : Int)
  | fallsOffEnd (address : Nat)
  /-- The body already holds a value-form instruction. -/
  | valueForm (address : Nat)
  | oracle (error : OracleError)
  deriving DecidableEq, Repr

namespace AnalysisError

/-- The failure in words. -/
def message : AnalysisError → String
  | .monitorOnValue address => s!"monitor enter/exit on a value-capable operand at {address}"
  | .frame address error => s!"at {address}: " ++ error.message
  | .unresolved address index =>
      s!"at {address}: constant pool entry {index.toNat} cannot be resolved"
  | .invalidDescriptor descriptor => "invalid descriptor " ++ descriptor
  | .invalidTarget address target => s!"branch at {address} targets {target}"
  | .fallsOffEnd address => s!"execution falls off the end of the code after {address}"
  | .valueForm address => s!"value-form instruction at {address} in unconverted code"
  | .oracle error => error.message

/-- The messages of the failures behind a failure. -/
def causes : AnalysisError → List String
  | .frame _ error => [error.message]
  | .oracle error => error.message :: error.causes
  | _ => []

end AnalysisError

end ValueForm
