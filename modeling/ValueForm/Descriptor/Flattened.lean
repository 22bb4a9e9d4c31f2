import ValueForm.Descriptor

/-!
# Names of the flattened form

A value-capable class `C` has a value class, named `;QC$Value;` in class
constants, and arrays of it are described with `QC$Value;` in place of the
innermost `LC;`.

`flattenDescriptor` gives the flattened form of a field or method descriptor.
The text is first cut into components; the class of each array-of-class
component is then asked about, in text order, and everything else is kept as it
stands.
-/

namespace ValueForm

/-- The class constant name of the value class of a class. -/
def valueClassName (className : String) : String :=
  ";Q" ++ className ++ "$Value;"

/-- The descriptor of a flattened value inside an array descriptor. -/
def valueElementDescriptor (className : String) : String :=
  "Q" ++ className ++ "$Value;"

/-- The descriptor of a one-dimensional array of flattened values. -/
def valueArrayDescriptor (className : String) : String :=
  "[" ++ valueElementDescriptor className

/-- A stretch of a descriptor. -/
inductive Component where
  /-- Text that flattening leaves alone. -/
  | verbatim (text : List Char)
  /-- An array, with its number of dimensions, of a class. -/
  | classArray (dimensions : Nat) (className : String)
  deriving DecidableEq, Repr

namespace Component

/-- The name of the class descriptor at the front, and what follows it. -/
def classAt? : List Char → Option (List Char × List Char)
  | 'L' :: body => untilSemicolon? body
  | _ => none

theorem classAt?_length {text name rest : List Char}
    (found : classAt? text = some (name, rest)) : rest.length < text.length := by
  unfold classAt? at found
  split at found
  · have := untilSemicolon?_length found
    simp only [List.length_cons]
    omega
  · simp at found

/-- Cut a descriptor into components. -/
def split (text : List Char) : List Component :=
  match text with
  | [] => []
  | '[' :: rest =>
      let brackets := '[' :: rest.takeWhile (· == '[')
      match _found : classAt? (rest.dropWhile (· == '[')) with
      | some (name, after) => .classArray brackets.length (String.ofList name) :: split after
      | none => .verbatim brackets :: split (rest.dropWhile (· == '['))
  | c :: rest =>
      match _found : classAt? (c :: rest) with
      | some (name, after) => .verbatim ('L' :: name ++ [';']) :: split after
      | none => if c = 'L' then [.verbatim ('L' :: rest)] else .verbatim [c] :: split rest
termination_by text.length
decreasing_by
  · have := classAt?_length _found
    have := (List.dropWhile_sublist (l := rest) (· == '[')).length_le
    simp only [List.length_cons]
    omega
  · have := (List.dropWhile_sublist (l := rest) (· == '[')).length_le
    simp only [List.length_cons]
    omega
  · exact classAt?_length _found
  · simp

/-- A component as it stands. -/
def text : Component → String
  | .verbatim text => String.ofList text
  | .classArray dimensions className =>
      String.ofList (List.replicate dimensions '[') ++ "L" ++ className ++ ";"

/-- A component whose class is value-capable. The innermost dimension is that of
an array of flattened values. -/
def flattenedText : Component → String
  | .verbatim text => String.ofList text
  | .classArray dimensions className =>
      String.ofList (List.replicate (dimensions - 1) '[') ++ valueArrayDescriptor className

/-- Ask about the class of a component, if it has one. -/
def asks {m : Type → Type} [Monad m] (capable : String → m Bool) : Component → m Bool
  | .verbatim _ => pure false
  | .classArray _ className => capable className

end Component

/-- The flattened form of a descriptor, or nothing when no component changes.
`capable` is asked once for every array-of-class component, in text order. -/
def flattenDescriptor {m : Type → Type} [Monad m] (capable : String → m Bool)
    (descriptor : String) : m (Option String) := do
  let parts ← (Component.split descriptor.toList).mapM fun part => do
    return (part, ← part.asks capable)
  if parts.any (·.2) then
    let texts := parts.map fun (part, flat) => if flat then part.flattenedText else part.text
    return some (String.join texts)
  else
    return none

end ValueForm
