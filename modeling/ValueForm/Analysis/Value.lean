import ValueForm.Descriptor
import ValueForm.Analysis.Site

/-!
# Abstract values

What the analysis knows about the contents of a local slot or a stack entry.
An instance of a value-capable class carries its provenance: the sites whose
decisions have to change if the instance turns out to be needed as a reference.

`Value.join` is what is known where two paths meet, and `Value.conflict` the
sites that meeting forces to references.
-/

namespace ValueForm

/-- What is known about a value. -/
inductive Value where
  /-- Nothing usable. -/
  | uninitialized
  | int
  | float
  | long
  | double
  /-- The null reference, which every reference type has. -/
  | null
  /-- Some reference. -/
  | reference
  | returnAddress
  /-- A reference to an object of a known type. -/
  | precise (type : FieldType)
  /-- An instance of a value-capable class. -/
  | capable (className : String) (provenance : SiteSet)
  deriving DecidableEq

namespace Value

/-- An instance of a value-capable class, decided at one site. -/
def capableAt (className : String) (site : Site) : Value :=
  .capable className (.singleton site)

/-- What is known about a value of a type. -/
def ofType : FieldType → Value
  | .primitive type =>
      match type with
      | .boolean | .byte | .char | .short | .int => .int
      | .long => .long
      | .float => .float
      | .double => .double
      | .void => .uninitialized
  | type => .precise type

/-- How many local slots a value takes. -/
def size : Value → Nat
  | .long => 2
  | .double => 2
  | _ => 1

/-- Whether a value counts as two words. -/
def isWide (value : Value) : Bool :=
  value.size = 2

/-- Whether a value is an instance of a value-capable class. -/
def isCapable : Value → Bool
  | .capable .. => true
  | _ => false

/-- The sites a value depends on. -/
def provenance : Value → SiteSet
  | .capable _ provenance => provenance
  | _ => .empty

/-- A value seen as an ordinary reference. -/
def asReference : Value → Value
  | .capable className _ => .precise (.object className)
  | other => other

/-- Whether a value is a reference. -/
def isReference : Value → Bool
  | .null | .reference | .precise _ | .capable .. => true
  | _ => false

/-- What is known where two values without value form meet. Null takes the type
of the other side. -/
def joinPlain (first second : Value) : Value :=
  if first = second then first
  else if first = .null ∧ second.isReference then second
  else if second = .null ∧ first.isReference then first
  else if first.isReference ∧ second.isReference then .reference
  else .uninitialized

/-- What is known where two values meet. Instances of one value-capable class
keep their value form; in every other pairing both sides are references. -/
def join (first second : Value) : Value :=
  match first, second with
  | .capable className sites, .capable className' sites' =>
      if className = className' then .capable className (sites.union sites')
      else joinPlain first.asReference second.asReference
  | _, _ => joinPlain first.asReference second.asReference

/-- The sites that have to yield references because two values meet. -/
def conflict (first second : Value) : List Site :=
  match first, second with
  | .capable className sites, .capable className' sites' =>
      if className = className' then [] else sites.toList ++ sites'.toList
  | _, _ => first.provenance.toList ++ second.provenance.toList

end Value

end ValueForm
