import ValueForm.ClassFile.Basic
import ValueForm.Instruction.Codec
import ValueForm.Analysis.Error
import ValueForm.Flattening.Workbench

/-!
# Failures of a class conversion
-/

namespace ValueForm

/-- Why a class cannot be converted. Methods are named by class, name and
descriptor. -/
inductive ConvertError where
  | malformedClass (error : ClassParseError)
  | unresolvedDescriptor (className methodName : String)
  | malformedBody (method : String) (error : ReadError)
  /-- A `Code` attribute cannot be read while descriptors are collected. -/
  | malformedCode (error : ReadError)
  | malformedVariables (error : ReadError)
  | code (method : String) (error : DecodeError)
  | analysis (method : String) (error : AnalysisError)
  | flattening (method : String) (error : FlattenError)
  | oracle (error : OracleError)
  deriving DecidableEq, Repr

namespace ConvertError

/-- The failure in words. -/
def message : ConvertError → String
  | .malformedClass error => error.message
  | .unresolvedDescriptor className methodName =>
      className ++ "." ++ methodName ++ ": unresolved descriptor"
  | .malformedBody method error => method ++ ": malformed Code attribute: " ++ error.message
  | .malformedCode error => "malformed Code attribute: " ++ error.message
  | .malformedVariables error => "malformed LocalVariableTable: " ++ error.message
  | .code method error => method ++ ": " ++ error.message
  | .analysis method error => "analysis of " ++ method ++ " failed: " ++ error.message
  | .flattening method error => "rewriting " ++ method ++ " failed: " ++ error.message
  | .oracle error => error.message

/-- The messages of the failures behind a failure. -/
def causes : ConvertError → List String
  | .code _ error => [error.message, error.cause]
  | .analysis _ error => error.message :: error.causes
  | .flattening _ error => [error.message]
  | .oracle error => error.message :: error.causes
  | _ => []

end ConvertError

end ValueForm
