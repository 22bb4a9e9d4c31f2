import Std.Data.HashMap
import ValueForm.ClassFile.Marker

/-!
# Which classes are value-capable

A class is value-capable when its class file carries the marker annotation; a
class that cannot be found is not. `verdict` gives the answer for a name from a
source of class files. An `Oracle` remembers the answers already given, so that
the source is consulted once for every name, and counts the consultations.
Failures are counted but not remembered.
-/

namespace ValueForm

/-- The descriptor of the annotation that marks a class as value-capable. -/
def capableMarker : String := "Ljvm/internal/value/ValueCapableClass;"

/-- What a source of class files says about a name. -/
inductive Lookup where
  | found (bytes : Bytes)
  | absent
  | unreadable (reason : String)
  deriving DecidableEq, Repr

/-- A source of class files, by internal name. -/
abbrev ClassFinder := String → Lookup

/-- Why there is no answer for a class. -/
inductive OracleError where
  | unreadable (className reason : String)
  | malformed (className : String) (error : ReadError)
  deriving DecidableEq, Repr

namespace OracleError

/-- The failure in words. -/
def message : OracleError → String
  | .unreadable className reason => "cannot read class " ++ className ++ ": " ++ reason
  | .malformed className error => "cannot parse class " ++ className ++ ": " ++ error.message

/-- The messages of the failures behind a failure. -/
def causes : OracleError → List String
  | .unreadable _ reason => [reason]
  | .malformed .. => []

end OracleError

/-- Whether a class is value-capable. -/
def verdict (find : ClassFinder) (className : String) : Except OracleError Bool :=
  match find className with
  | .absent => .ok false
  | .unreadable reason => .error (.unreadable className reason)
  | .found bytes =>
      match ClassFile.scanAnnotation capableMarker bytes with
      | .ok (found, _) => .ok found
      | .error error => .error (.malformed className error)

/-- The answers given so far. -/
structure Oracle where
  answers : Std.HashMap String Bool := {}
  /-- How often the source was consulted. -/
  lookups : Nat := 0

namespace Oracle

/-- Ask about a class. -/
def query (find : ClassFinder) (oracle : Oracle) (className : String) :
    Except OracleError Bool × Oracle :=
  match oracle.answers[className]? with
  | some answer => (.ok answer, oracle)
  | none =>
      match verdict find className with
      | .ok answer =>
          (.ok answer, ⟨oracle.answers.insert className answer, oracle.lookups + 1⟩)
      | .error error => (.error error, { oracle with lookups := oracle.lookups + 1 })

end Oracle

end ValueForm
