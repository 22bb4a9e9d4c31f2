import Mathlib
import ValueForm.Descriptor

/-!
# The grammar of descriptors

A descriptor is the text of a type that can be written: its class names are there
and hold no `;`, and it is no array of `void`. A reader gives a type exactly for
the text of such a type, with whatever follows it left over, and from there the
same holds of parameter lists, of method types, and of types read at a byte offset.
-/

namespace ValueForm

/-- A text is cut at its first semicolon. -/
theorem untilSemicolon?_eq_some_iff {text name rest : List Char} :
    untilSemicolon? text = some (name, rest) ↔ ';' ∉ name ∧ text = name ++ ';' :: rest := by
  unfold untilSemicolon?
  constructor
  · intro found
    split at found
    · next head tail dropped =>
        cases found
        have isEnd := List.head?_dropWhile_not (· != ';') text
        rw [dropped] at isEnd
        obtain rfl : head = ';' := by simpa using isEnd
        constructor
        · intro inside
          simpa using List.mem_takeWhile_imp inside
        · rw [← dropped, List.takeWhile_append_dropWhile]
    · cases found
  · rintro ⟨outside, rfl⟩
    have passes : ∀ c ∈ name, (c != ';') = true := by
      intro c isPart
      exact bne_iff_ne.2 fun isEnd => outside (isEnd ▸ isPart)
    rw [List.dropWhile_append_of_pos passes, List.takeWhile_append_of_pos passes]
    simp

namespace Primitive

theorem ofLetter?_eq_some_iff {letter : Char} {type : Primitive} :
    ofLetter? letter = some type ↔ letter = type.letter := by
  constructor
  · intro found
    unfold ofLetter? at found
    split at found <;> cases found <;> rfl
  · rintro rfl
    cases type <;> rfl

/-- No primitive type is written like the beginning of another type or the end of
parameters. -/
theorem letter_ne (type : Primitive) :
    type.letter ≠ 'L' ∧ type.letter ≠ '[' ∧ type.letter ≠ ')' := by
  cases type <;> decide

end Primitive

namespace FieldType

/-- A type that a descriptor can denote. -/
def WellFormed : FieldType → Prop
  | .primitive _ => True
  | .object name => name ≠ "" ∧ ';' ∉ name.toList
  | .array element => element ≠ void ∧ element.WellFormed

instance decidableWellFormed : DecidablePred WellFormed
  | .primitive _ => inferInstanceAs (Decidable True)
  | .object name => inferInstanceAs (Decidable (name ≠ "" ∧ ';' ∉ name.toList))
  | .array element =>
      have := decidableWellFormed element
      inferInstanceAs (Decidable (element ≠ void ∧ element.WellFormed))

@[simp]
theorem toList_text_primitive (type : Primitive) :
    (FieldType.primitive type).text.toList = [type.letter] :=
  String.toList_singleton type.letter

@[simp]
theorem toList_text_object (name : String) :
    (FieldType.object name).text.toList = 'L' :: name.toList ++ [';'] := by
  simp [text]

@[simp]
theorem toList_text_array (element : FieldType) :
    (FieldType.array element).text.toList = '[' :: element.text.toList := by
  simp [text]

/-- What is read is a type that can be written, and its text. -/
theorem spelled_of_read? {input rest : List Char} {type : FieldType}
    (found : read? input = some (type, rest)) :
    type.WellFormed ∧ input = type.text.toList ++ rest := by
  fun_induction read? input generalizing type rest with
  | case1 => cases found
  | case2 tail =>
      rcases Option.bind_eq_some_iff.1 found with ⟨⟨name, after⟩, cut, ended⟩
      rcases untilSemicolon?_eq_some_iff.1 cut with ⟨outside, rfl⟩
      rcases Option.ite_none_left_eq_some.1 ended with ⟨isNamed, ended⟩
      cases ended
      refine ⟨⟨?_, by rwa [String.toList_ofList]⟩, by simp [toList_text_object]⟩
      intro isEmpty
      exact isNamed (by simpa using congrArg String.toList isEmpty)
  | case3 tail ih =>
      rcases Option.bind_eq_some_iff.1 found with ⟨⟨element, after⟩, inner, ended⟩
      rcases Option.ite_none_left_eq_some.1 ended with ⟨notVoid, ended⟩
      cases ended
      rcases ih inner with ⟨wellFormed, rfl⟩
      exact ⟨⟨notVoid, wellFormed⟩, by rw [toList_text_array, List.cons_append]⟩
  | case4 letter tail =>
      rcases Option.map_eq_some_iff.1 found with ⟨primitive, isLetter, ended⟩
      cases ended
      rw [toList_text_primitive, Primitive.ofLetter?_eq_some_iff.1 isLetter]
      exact ⟨trivial, rfl⟩

/-- A type that can be written is read from its text, whatever follows. -/
theorem read?_text {type : FieldType} (wellFormed : type.WellFormed) (rest : List Char) :
    read? (type.text.toList ++ rest) = some (type, rest) := by
  induction type generalizing rest with
  | primitive type => cases type <;> rfl
  | object name =>
      have cut : untilSemicolon? (name.toList ++ ';' :: rest) = some (name.toList, rest) :=
        untilSemicolon?_eq_some_iff.2 ⟨wellFormed.2, rfl⟩
      have isNamed : name.toList ≠ [] := by simpa using wellFormed.1
      rw [toList_text_object]
      simp [read?, cut, isNamed]
  | array element ih =>
      rw [toList_text_array, List.cons_append]
      simp [read?, ih wellFormed.2, wellFormed.1]

theorem read?_eq_some_iff {input rest : List Char} {type : FieldType} :
    read? input = some (type, rest) ↔ type.WellFormed ∧ input = type.text.toList ++ rest := by
  constructor
  · exact spelled_of_read?
  · rintro ⟨wellFormed, rfl⟩
    exact read?_text wellFormed rest

theorem parse?_eq_some_iff {descriptor : String} {type : FieldType} :
    parse? descriptor = some type ↔ type.WellFormed ∧ descriptor = type.text := by
  have whole : parse? descriptor = some type ↔ read? descriptor.toList = some (type, []) := by
    unfold parse?
    constructor
    · intro parsed
      split at parsed
      · next found =>
          cases parsed
          exact found
      · cases parsed
    · intro found
      rw [found]
  rw [whole, read?_eq_some_iff, List.append_nil, String.toList_inj]

/-! ## Byte offsets -/

theorem utf8ByteSize_ofList_cons (c : Char) (text : List Char) :
    (String.ofList (c :: text)).utf8ByteSize =
      c.utf8Size + (String.ofList text).utf8ByteSize := by
  rw [String.ofList_cons, String.utf8ByteSize_append, String.utf8ByteSize_singleton]

/-- Characters are passed over up to a byte offset where one starts. -/
theorem dropBytes?_eq_some_iff {position : Nat} {text rest : List Char} :
    dropBytes? position text = some rest ↔
      ∃ before, text = before ++ rest ∧ (String.ofList before).utf8ByteSize = position := by
  induction text generalizing position with
  | nil => cases position <;> simp [dropBytes?]
  | cons c text ih =>
      have positive := c.utf8Size_pos
      cases position with
      | zero =>
          rw [dropBytes?, Option.some.injEq]
          constructor
          · rintro rfl
            exact ⟨[], rfl, String.utf8ByteSize_empty⟩
          · rintro ⟨before, isText, isStart⟩
            cases before with
            | nil => exact isText
            | cons first others =>
                have := first.utf8Size_pos
                rw [utf8ByteSize_ofList_cons] at isStart
                omega
      | succ position =>
          rw [dropBytes?, Option.ite_none_right_eq_some, ih]
          constructor
          · rintro ⟨fits, before, rfl, distance⟩
            refine ⟨c :: before, rfl, ?_⟩
            rw [utf8ByteSize_ofList_cons, distance]
            omega
          · rintro ⟨before, isText, distance⟩
            cases before with
            | nil => cases distance
            | cons first others =>
                cases isText
                rw [utf8ByteSize_ofList_cons] at distance
                exact ⟨by omega, others, rfl, by omega⟩

/-- A type is read at a byte offset exactly if its text stands there. -/
theorem readAt?_eq_some_iff {text : String} {position next : Nat} {type : FieldType} :
    readAt? text position = some (type, next) ↔
      type.WellFormed ∧ ∃ before after, text = before ++ type.text ++ after ∧
        before.utf8ByteSize = position ∧ next = position + type.text.utf8ByteSize := by
  simp only [readAt?, Option.bind_eq_bind, Option.bind_eq_some_iff, dropBytes?_eq_some_iff]
  constructor
  · rintro ⟨_, ⟨before, isText, distance⟩, ⟨type, rest⟩, found, ended⟩
    cases ended
    rcases read?_eq_some_iff.1 found with ⟨wellFormed, rfl⟩
    have isText : text = String.ofList before ++ type.text ++ String.ofList rest := by
      apply String.toList_inj.1
      simp [isText]
    refine ⟨wellFormed, String.ofList before, String.ofList rest, isText, distance, ?_⟩
    rw [isText]
    simp only [String.utf8ByteSize_append]
    omega
  · rintro ⟨wellFormed, before, after, rfl, distance, rfl⟩
    refine ⟨type.text.toList ++ after.toList, ⟨before.toList, by simp, by simpa using distance⟩,
      (type, after.toList), read?_text wellFormed _, ?_⟩
    simp [String.utf8ByteSize_append, ← distance]

/-! ## Class constants -/

/-- The class constant of a type that was named has the name. -/
theorem internalName?_of_ofInternalName? {name : String} {type : FieldType}
    (named : ofInternalName? name = some type) : type.internalName? = some name := by
  unfold ofInternalName? at named
  split at named
  · cases named
  · next rest isArray =>
      rcases parse?_eq_some_iff.1 named with ⟨_, rfl⟩
      cases type with
      | primitive type =>
          rw [toList_text_primitive] at isArray
          exact absurd (List.cons.inj isArray).1 type.letter_ne.2.1
      | object name =>
          rw [toList_text_object] at isArray
          exact absurd (List.cons.inj isArray).1 (by decide)
      | array element => rfl
  · cases named
    rfl

theorem ofInternalName?_eq_none_iff {name : String} :
    ofInternalName? name = none ↔
      name = "" ∨ name.toList.head? = some '[' ∧ ¬ ∃ type : FieldType,
        type.WellFormed ∧ name = type.text := by
  have isDescriptor : parse? name = none ↔ ¬ ∃ type : FieldType,
      type.WellFormed ∧ name = type.text := by
    simp only [Option.eq_none_iff_forall_ne_some, Ne, parse?_eq_some_iff, not_exists]
  rw [← isDescriptor, ← String.toList_eq_nil_iff]
  unfold ofInternalName?
  split
  · next isEmpty => simp [isEmpty]
  · next rest isArray => simp [isArray]
  · next notEmpty notArray =>
      cases chars : name.toList with
      | nil => exact absurd chars notEmpty
      | cons c rest =>
          have notBracket : c ≠ '[' := fun isBracket => notArray rest (isBracket ▸ chars)
          simp [notBracket]

/-- The text of a type is not taken for the end of parameters. -/
theorem head?_text_ne (type : FieldType) (rest : List Char) :
    (type.text.toList ++ rest).head? ≠ some ')' := by
  cases type with
  | primitive type => simpa [toList_text_primitive] using type.letter_ne.2.2
  | object name => simp [toList_text_object]
  | array element => simp [toList_text_array]

end FieldType

namespace MethodType

/-- A type that a method descriptor can denote. -/
structure WellFormed (type : MethodType) : Prop where
  params : ∀ param ∈ type.params, param.WellFormed ∧ param ≠ .void
  result : type.result.WellFormed

/-- Parameters are read exactly up to the parenthesis behind their texts. -/
theorem readParams?_eq_some_iff {done params : List FieldType} {input rest : List Char} :
    readParams? done input = some (params, rest) ↔
      ∃ more, params = done.reverse ++ more ∧
        (∀ param ∈ more, param.WellFormed ∧ param ≠ .void) ∧
        input = more.flatMap (·.text.toList) ++ ')' :: rest := by
  constructor
  · intro found
    fun_induction readParams? done input with
    | case1 done tail =>
        cases found
        exact ⟨[], by simp, List.forall_mem_nil _, rfl⟩
    | case2 => cases found
    | case3 => cases found
    | case4 done input _ type tail reads notVoid ih =>
        rcases ih found with ⟨more, rfl, each, rfl⟩
        rcases FieldType.read?_eq_some_iff.1 reads with ⟨wellFormed, rfl⟩
        exact ⟨type :: more, by simp, List.forall_mem_cons.2 ⟨⟨wellFormed, notVoid⟩, each⟩,
          by simp⟩
  · rintro ⟨more, rfl, each, rfl⟩
    induction more generalizing done with
    | nil => simp [readParams?]
    | cons type more ih =>
        rcases List.forall_mem_cons.1 each with ⟨⟨wellFormed, notVoid⟩, others⟩
        have reads := FieldType.read?_text wellFormed
          (more.flatMap (·.text.toList) ++ ')' :: rest)
        rw [List.flatMap_cons, List.append_assoc]
        unfold readParams?
        split
        · next tail isEnd =>
            have head := type.head?_text_ne (more.flatMap (·.text.toList) ++ ')' :: rest)
            rw [isEnd] at head
            exact absurd rfl head
        · split
          · next fails => cases fails.symm.trans reads
          · next read =>
              cases read.symm.trans reads
              rw [if_neg notVoid, ih others]
              simp

theorem parse?_eq_some_iff {descriptor : String} {type : MethodType} :
    parse? descriptor = some type ↔ type.WellFormed ∧ descriptor = type.text := by
  have chars : type.text.toList = '(' :: (type.params.flatMap (·.text.toList) ++ ')' ::
      type.result.text.toList) := by
    simp [text, List.flatMap_map]
  rw [← String.toList_inj, chars]
  unfold parse?
  constructor
  · intro parsed
    split at parsed
    · next tail isOpen =>
        rcases Option.bind_eq_some_iff.1 parsed with ⟨⟨params, after⟩, found, ended⟩
        rcases readParams?_eq_some_iff.1 found with ⟨_, rfl, each, rfl⟩
        dsimp only at ended
        split at ended
        · next result reads =>
            cases ended
            rcases FieldType.read?_eq_some_iff.1 reads with ⟨wellFormed, rfl⟩
            exact ⟨⟨each, wellFormed⟩, by simp [isOpen]⟩
        · cases ended
    · cases parsed
  · rintro ⟨wellFormed, isText⟩
    have found : readParams? [] (type.params.flatMap (·.text.toList) ++ ')' ::
        type.result.text.toList) = some (type.params, type.result.text.toList) :=
      readParams?_eq_some_iff.2 ⟨type.params, rfl, wellFormed.params, rfl⟩
    have reads := FieldType.read?_text wellFormed.result []
    rw [List.append_nil] at reads
    rw [isText]
    simp [found, reads]

end MethodType

/-- Descriptors are read exactly as the grammar has them: as a whole, for a field or
for a method, from a byte offset on, and where a class constant names a type. -/
theorem parse?_accepts_grammar (descriptor : String) :
    (∀ type, FieldType.parse? descriptor = some type ↔
      type.WellFormed ∧ descriptor = type.text) ∧
    (∀ type, MethodType.parse? descriptor = some type ↔
      (∀ param ∈ type.params, param.WellFormed ∧ param ≠ .void) ∧ type.result.WellFormed ∧
        descriptor = "(" ++ String.join (type.params.map FieldType.text) ++ ")" ++
          type.result.text) ∧
    (∀ position type next, FieldType.readAt? descriptor position = some (type, next) ↔
      type.WellFormed ∧ ∃ before after, descriptor = before ++ type.text ++ after ∧
        before.utf8ByteSize = position ∧ next = position + type.text.utf8ByteSize) ∧
    (∀ type, FieldType.ofInternalName? descriptor = some type →
      type.internalName? = some descriptor) ∧
    (FieldType.ofInternalName? descriptor = none ↔
      descriptor = "" ∨ descriptor.toList.head? = some '[' ∧ ¬ ∃ type : FieldType,
        type.WellFormed ∧ descriptor = type.text) := by
  refine ⟨fun type => FieldType.parse?_eq_some_iff, fun type => ?_,
    fun position type next => FieldType.readAt?_eq_some_iff,
    fun type => FieldType.internalName?_of_ofInternalName?,
    FieldType.ofInternalName?_eq_none_iff⟩
  rw [MethodType.parse?_eq_some_iff]
  constructor
  · rintro ⟨wellFormed, isText⟩
    exact ⟨wellFormed.params, wellFormed.result, isText⟩
  · rintro ⟨params, result, isText⟩
    exact ⟨⟨params, result⟩, isText⟩

/-- A class name may look like other parts of a descriptor. -/
theorem parse?_accepts_grammar_nested :
    MethodType.parse? "([[L(é[V;I)[J" =
        some ⟨[.array (.array (.object "(é[V")), .primitive .int], .array (.primitive .long)⟩ ∧
      FieldType.readAt? "([[L(é[V;I)[J" 1 = some (.array (.array (.object "(é[V")), 10) ∧
      (FieldType.array (.array (.object "(é[V"))).internalName? = some "[[L(é[V;" := by
  have named : FieldType.ofInternalName? "[[L(é[V;" =
      some (.array (.array (.object "(é[V"))) := by
    decide +kernel
  rcases parse?_accepts_grammar "([[L(é[V;I)[J" with ⟨_, isMethod, isAt, _⟩
  exact ⟨(isMethod _).2 (by decide +kernel),
    (isAt _ _ _).2 ⟨by decide, "(", "I)[J", by decide +kernel⟩,
    (parse?_accepts_grammar "[[L(é[V;").2.2.2.1 _ named⟩

end ValueForm
