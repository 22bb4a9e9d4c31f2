/-!
# Descriptors

Field and method types in the notation of class files: one letter for a
primitive type, `L` name `;` for a class, `[` for an array of what follows, and
for a method the parameter types in parentheses before the result type.

`FieldType.text` and `MethodType.text` write types; `FieldType.parse?` and
`MethodType.parse?` read them and accept a text only as a whole.
-/

namespace ValueForm

/-- The primitive types, with `void` for a method without result. -/
inductive Primitive where
  | boolean | byte | char | short | int | long | float | double | void
  deriving DecidableEq, Repr

namespace Primitive

/-- The letter of a primitive type. -/
def letter : Primitive → Char
  | .boolean => 'Z'
  | .byte => 'B'
  | .char => 'C'
  | .short => 'S'
  | .int => 'I'
  | .long => 'J'
  | .float => 'F'
  | .double => 'D'
  | .void => 'V'

/-- The primitive type a letter stands for. -/
def ofLetter? : Char → Option Primitive
  | 'Z' => some .boolean
  | 'B' => some .byte
  | 'C' => some .char
  | 'S' => some .short
  | 'I' => some .int
  | 'J' => some .long
  | 'F' => some .float
  | 'D' => some .double
  | 'V' => some .void
  | _ => none

end Primitive

/-- The characters before the first `;` and those after it. -/
def untilSemicolon? (text : List Char) : Option (List Char × List Char) :=
  match text.dropWhile (· != ';') with
  | _ :: rest => some (text.takeWhile (· != ';'), rest)
  | [] => none

theorem untilSemicolon?_length {text name rest : List Char}
    (found : untilSemicolon? text = some (name, rest)) : rest.length < text.length := by
  have bound : (text.dropWhile (· != ';')).length ≤ text.length :=
    (List.dropWhile_sublist _).length_le
  revert found
  unfold untilSemicolon?
  split
  · next head tail eq =>
      intro found
      simp only [Option.some.injEq, Prod.mk.injEq] at found
      obtain ⟨-, rfl⟩ := found
      rw [eq, List.length_cons] at bound
      omega
  · simp

/-- A type: primitive, a class by its internal name, or an array. -/
inductive FieldType where
  | primitive (type : Primitive)
  | object (name : String)
  | array (element : FieldType)
  deriving DecidableEq, Repr

namespace FieldType

/-- The type of no value. -/
def void : FieldType := .primitive .void

/-- The descriptor of a type. -/
def text : FieldType → String
  | .primitive type => String.singleton type.letter
  | .object name => "L" ++ name ++ ";"
  | .array element => "[" ++ element.text

/-- Read one type at the front. A class needs a name, and there is no array of
`void`. -/
def read? : List Char → Option (FieldType × List Char)
  | [] => none
  | 'L' :: rest => do
      let (name, after) ← untilSemicolon? rest
      if name.isEmpty then none else some (.object (String.ofList name), after)
  | '[' :: rest => do
      let (element, after) ← read? rest
      if element = void then none else some (.array element, after)
  | letter :: rest => (Primitive.ofLetter? letter).map fun type => (.primitive type, rest)

theorem read?_length {text rest : List Char} {type : FieldType}
    (found : read? text = some (type, rest)) : rest.length < text.length := by
  fun_induction read? text generalizing type rest with
  | case1 => simp at found
  | case2 tail =>
      obtain ⟨⟨name, after⟩, split, eq⟩ := Option.bind_eq_some_iff.1 found
      have shorter := untilSemicolon?_length split
      simp only [Option.ite_none_left_eq_some, Option.some.injEq, Prod.mk.injEq] at eq
      rw [List.length_cons, ← eq.2.2]
      omega
  | case3 tail ih =>
      obtain ⟨⟨element, after⟩, inner, eq⟩ := Option.bind_eq_some_iff.1 found
      have shorter := ih inner
      simp only [Option.ite_none_left_eq_some, Option.some.injEq, Prod.mk.injEq] at eq
      rw [List.length_cons, ← eq.2.2]
      omega
  | case4 letter tail =>
      obtain ⟨primitive, -, eq⟩ := Option.map_eq_some_iff.1 found
      simp only [Prod.mk.injEq] at eq
      simp [← eq.2]

/-- The type a descriptor denotes; nothing may follow it. -/
def parse? (descriptor : String) : Option FieldType :=
  match read? descriptor.toList with
  | some (type, []) => some type
  | _ => none

/-- The characters from byte offset `position` on, if a character starts
there. -/
def dropBytes? : (position : Nat) → List Char → Option (List Char)
  | 0, text => some text
  | _ + 1, [] => none
  | position + 1, c :: rest =>
      if c.utf8Size ≤ position + 1 then dropBytes? (position + 1 - c.utf8Size) rest else none
termination_by _ text => text

/-- The type at byte offset `position` of a text, and the offset after it. -/
def readAt? (text : String) (position : Nat) : Option (FieldType × Nat) := do
  let (type, rest) ← read? (← dropBytes? position text.toList)
  return (type, text.utf8ByteSize - (String.ofList rest).utf8ByteSize)

/-- The type a class constant names: an array descriptor or a class name. -/
def ofInternalName? (name : String) : Option FieldType :=
  match name.toList with
  | [] => none
  | '[' :: _ => parse? name
  | _ => some (.object name)

/-- The name of the class constant of a type; primitive types have none. -/
def internalName? : FieldType → Option String
  | .primitive _ => none
  | .object name => some name
  | .array element => some (FieldType.array element).text

/-- The class a type is, if it is one. -/
def className? : FieldType → Option String
  | .object name => some name
  | _ => none

/-- How many local slots a value of the type takes. -/
def slots : FieldType → Nat
  | .primitive .void => 0
  | .primitive .long => 2
  | .primitive .double => 2
  | _ => 1

end FieldType

/-- The type of a method. -/
structure MethodType where
  params : List FieldType
  result : FieldType
  deriving DecidableEq, Repr

namespace MethodType

/-- The descriptor of a method type. -/
def text (type : MethodType) : String :=
  "(" ++ String.join (type.params.map FieldType.text) ++ ")" ++ type.result.text

/-- Read parameter types up to the closing parenthesis; none may be `void`.
`done` holds the types read so far, last one first. -/
def readParams? (done : List FieldType) (text : List Char) :
    Option (List FieldType × List Char) :=
  match text with
  | ')' :: rest => some (done.reverse, rest)
  | text =>
    match _found : FieldType.read? text with
    | none => none
    | some (type, rest) =>
      if type = FieldType.void then none else readParams? (type :: done) rest
termination_by text.length
decreasing_by exact FieldType.read?_length _found

/-- The method type a descriptor denotes; nothing may follow it. -/
def parse? (descriptor : String) : Option MethodType :=
  match descriptor.toList with
  | '(' :: rest => do
      let (params, after) ← readParams? [] rest
      match FieldType.read? after with
      | some (result, []) => some ⟨params, result⟩
      | _ => none
  | _ => none

end MethodType

end ValueForm
