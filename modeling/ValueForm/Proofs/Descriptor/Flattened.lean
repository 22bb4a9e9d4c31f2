import ValueForm.Descriptor.Flattened
import ValueForm.Proofs.Descriptor.Grammar

/-!
# Flattened descriptors, part by part

`flattenDescriptor` cuts a text into components without parsing it. On the text of
a descriptor the cuts follow its parts: what is asked about are the element classes
of its arrays of classes, in order, and what comes out is the text of the same parts
with the arrays flattened whose class was found to be value-capable.

This holds in every monad, so it says in which order a callback is asked, how often,
and what follows if it fails. `replies` spells that out for a callback that may answer
according to what it was asked before, and `recorded` keeps what it was asked.
-/

namespace ValueForm

namespace FieldType

/-- The class of the innermost elements of a type, if they have one. -/
def elementClass? : FieldType → Option String
  | .primitive _ => none
  | .object name => some name
  | .array element => element.elementClass?

/-- The class of the innermost elements of an array. -/
def arrayClass? : FieldType → Option String
  | .array element => element.elementClass?
  | _ => none

/-- The text of a type with the value class in place of its innermost class. -/
def flatText : FieldType → String
  | .primitive type => String.singleton type.letter
  | .object name => valueElementDescriptor name
  | .array element => "[" ++ element.flatText

end FieldType

/-- A part of a descriptor. -/
inductive DescriptorPart where
  | opening
  | closing
  | ofType (type : FieldType)

namespace DescriptorPart

/-- A part as it stands. -/
def text : DescriptorPart → String
  | .opening => "("
  | .closing => ")"
  | .ofType type => type.text

/-- A part that is flattened. -/
def flatText : DescriptorPart → String
  | .opening => "("
  | .closing => ")"
  | .ofType type => type.flatText

/-- The class a part names. -/
def className? : DescriptorPart → Option String
  | .ofType type => type.elementClass?
  | _ => none

/-- The element class of a part that is an array of a class. -/
def arrayClass? : DescriptorPart → Option String
  | .ofType type => type.arrayClass?
  | _ => none

/-- The texts of parts. The arrays of classes among them are flattened or not as the
flags say, one flag for each. -/
def texts : List DescriptorPart → (flags : List Bool) → List String
  | [], _ => []
  | part :: rest, flags =>
      match part.arrayClass?, flags with
      | some _, flag :: others =>
          (if flag then part.flatText else part.text) :: texts rest others
      | _, _ => part.text :: texts rest flags

end DescriptorPart

/-- A field or method type. -/
inductive Descriptor where
  | field (type : FieldType)
  | method (type : MethodType)

namespace Descriptor

/-- The parts of a descriptor in order. -/
def parts : Descriptor → List DescriptorPart
  | .field type => [.ofType type]
  | .method type => .opening :: type.params.map .ofType ++ [.closing, .ofType type.result]

/-- The text of a descriptor. -/
def text : Descriptor → String
  | .field type => type.text
  | .method type => type.text

/-- The classes a descriptor names. -/
def classNames (descriptor : Descriptor) : List String :=
  descriptor.parts.filterMap DescriptorPart.className?

/-- The element classes of the arrays of classes in a descriptor. -/
def arrayClasses (descriptor : Descriptor) : List String :=
  descriptor.parts.filterMap DescriptorPart.arrayClass?

/-- The flattened text of a descriptor, if any of its arrays of classes is flattened. -/
def flattened? (descriptor : Descriptor) (flags : List Bool) : Option String :=
  if true ∈ flags then some (String.join (DescriptorPart.texts descriptor.parts flags)) else none

theorem text_eq_join (descriptor : Descriptor) :
    descriptor.text.toList = descriptor.parts.flatMap (·.text.toList) := by
  cases descriptor with
  | field type => simp [parts, text, DescriptorPart.text]
  | method type =>
      simp [parts, text, DescriptorPart.text, MethodType.text, List.flatMap_map]

end Descriptor

/-! ## Where a text is cut -/

namespace Component

/-- A character that begins no class and no array stands alone. -/
theorem split_mark {c : Char} (notArray : c ≠ '[') (notClass : c ≠ 'L') (rest : List Char) :
    split (c :: rest) = .verbatim [c] :: split rest := by
  have noClass : classAt? (c :: rest) = none := by
    unfold classAt?
    split
    · next isClass => exact absurd (List.cons.inj isClass).1 notClass
    · rfl
  rw [split.eq_def]
  split
  · next isEmpty => cases isEmpty
  · next isArray => exact absurd (List.cons.inj isArray).1 notArray
  · next isMark =>
      cases isMark
      split
      · next found => cases found.symm.trans noClass
      · rw [if_neg notClass]

/-- A class outside an array is left alone. -/
theorem split_class {name : List Char} (outside : ';' ∉ name) (rest : List Char) :
    split ('L' :: (name ++ ';' :: rest)) = .verbatim ('L' :: name ++ [';']) :: split rest := by
  have isClass : classAt? ('L' :: (name ++ ';' :: rest)) = some (name, rest) :=
    untilSemicolon?_eq_some_iff.2 ⟨outside, rfl⟩
  rw [split.eq_def]
  split
  · next isEmpty => cases isEmpty
  · next isArray => exact absurd (List.cons.inj isArray).1 (by decide)
  · next isMark =>
      cases isMark
      split
      · next found =>
          cases found.symm.trans isClass
          rfl
      · next notFound => cases notFound.symm.trans isClass

/-- Brackets are cut off together, with the class behind them if there is one. -/
theorem split_brackets (count : Nat) {text : List Char} (noMore : text.head? ≠ some '[') :
    split (List.replicate (count + 1) '[' ++ text) =
      match classAt? text with
      | some (name, after) => .classArray (count + 1) (String.ofList name) :: split after
      | none => .verbatim (List.replicate (count + 1) '[') :: split text := by
  have brackets : ∀ c ∈ List.replicate count '[', (c == '[') = true := by
    intro c isBracket
    rw [List.eq_of_mem_replicate isBracket]
    rfl
  have stops : text.takeWhile (· == '[') = [] ∧ text.dropWhile (· == '[') = text := by
    cases text with
    | nil => exact ⟨rfl, rfl⟩
    | cons c text =>
        have notBracket : c ≠ '[' := fun isBracket => noMore (congrArg some isBracket)
        simp [notBracket]
  rw [List.replicate_succ, List.cons_append, split]
  rw [List.takeWhile_append_of_pos brackets, List.dropWhile_append_of_pos brackets, stops.1,
    stops.2]
  split
  · next found => simp [found]
  · next found => simp [found]

/-- The components of a type behind some brackets. -/
def ofType : (brackets : Nat) → FieldType → List Component
  | 0, .primitive type => [.verbatim [type.letter]]
  | count + 1, .primitive type =>
      [.verbatim (List.replicate (count + 1) '['), .verbatim [type.letter]]
  | 0, .object name => [.verbatim ('L' :: name.toList ++ [';'])]
  | count + 1, .object name => [.classArray (count + 1) name]
  | count, .array element => ofType (count + 1) element

/-- The text of a type is cut at its end, whatever follows. -/
theorem split_type {type : FieldType} (named : ∀ name ∈ type.elementClass?, ';' ∉ name.toList)
    (count : Nat) (rest : List Char) :
    split (List.replicate count '[' ++ (type.text.toList ++ rest)) =
      ofType count type ++ split rest := by
  induction type generalizing count with
  | primitive type =>
      have letter := type.letter_ne
      have alone := split_mark letter.2.1 letter.1 rest
      rw [FieldType.toList_text_primitive, List.singleton_append]
      cases count with
      | zero => exact alone
      | succ count =>
          have noClass : classAt? (type.letter :: rest) = none := by cases type <;> rfl
          rw [split_brackets count (by simpa using letter.2.1), alone, noClass]
          rfl
  | object name =>
      have outside := named name rfl
      rw [FieldType.toList_text_object, List.cons_append, List.cons_append, List.append_assoc,
        List.singleton_append]
      cases count with
      | zero => exact split_class outside rest
      | succ count =>
          have isClass : classAt? ('L' :: (name.toList ++ ';' :: rest)) =
              some (name.toList, rest) :=
            untilSemicolon?_eq_some_iff.2 ⟨outside, rfl⟩
          rw [split_brackets count (by simp), isClass]
          simp [ofType]
  | array element ih =>
      rw [FieldType.toList_text_array, List.cons_append, ← List.singleton_append,
        ← List.append_assoc, ← List.replicate_succ', ih named]
      cases count <;> rfl

/-- The components of a part of a descriptor. -/
def ofPart : DescriptorPart → List Component
  | .opening => [.verbatim ['(']]
  | .closing => [.verbatim [')']]
  | .ofType type => ofType 0 type

/-- The text of a descriptor is cut between its parts. -/
theorem split_parts {parts : List DescriptorPart}
    (named : ∀ part ∈ parts, ∀ name ∈ part.className?, ';' ∉ name.toList) :
    split (parts.flatMap (·.text.toList)) = parts.flatMap ofPart := by
  induction parts with
  | nil => rw [List.flatMap_nil, split, List.flatMap_nil]
  | cons part parts ih =>
      rcases List.forall_mem_cons.1 named with ⟨here, others⟩
      rw [List.flatMap_cons, List.flatMap_cons, ← ih others]
      cases part with
      | opening => exact split_mark (by decide) (by decide) _
      | closing => exact split_mark (by decide) (by decide) _
      | ofType type => exact split_type here 0 _

/-! ## What is asked, and what is made of the answers -/

/-- The class that is asked about. -/
def class? : Component → Option String
  | .verbatim _ => none
  | .classArray _ className => some className

/-- Components with the answers to what is asked about them. -/
def withAnswers : List Component → (flags : List Bool) → List (Component × Bool)
  | [], _ => []
  | part :: rest, flags =>
      match part.class?, flags with
      | some _, flag :: others => (part, flag) :: withAnswers rest others
      | _, _ => (part, false) :: withAnswers rest flags

section

variable {m : Type → Type} [Monad m] [LawfulMonad m]

/-- The classes of components are asked about in order, and nothing else is. -/
theorem mapM_asks (capable : String → m Bool) (parts : List Component) :
    (parts.mapM fun part => do return (part, ← part.asks capable)) = do
      let flags ← (parts.filterMap class?).mapM capable
      return withAnswers parts flags := by
  induction parts with
  | nil => simp [withAnswers]
  | cons part parts ih =>
      rw [List.mapM_cons, ih]
      cases part with
      | verbatim text => simp [asks, class?, withAnswers, List.filterMap_cons]
      | classArray dimensions className => simp [asks, class?, withAnswers]

/-- What follows a traversal may rely on its having one result for every item. -/
theorem mapM_bind_congr {α β γ : Type} {step : α → m β} {next next' : List β → m γ}
    {items : List α}
    (same : ∀ results, results.length = items.length → next results = next' results) :
    items.mapM step >>= next = items.mapM step >>= next' := by
  induction items generalizing next next' with
  | nil =>
      rw [List.mapM_nil, pure_bind, pure_bind]
      exact same [] rfl
  | cons item items ih =>
      simp only [List.mapM_cons, bind_assoc, pure_bind]
      refine bind_congr fun result => ih fun results length => same _ ?_
      rw [List.length_cons, length, List.length_cons]

end

/-- A component is flattened if an answer says so. -/
theorem any_withAnswers {parts : List Component} {flags : List Bool}
    (length : flags.length = (parts.filterMap class?).length) :
    (withAnswers parts flags).any (·.2) = true ↔ true ∈ flags := by
  induction parts generalizing flags with
  | nil =>
      rw [List.filterMap_nil, List.length_nil] at length
      simp [withAnswers, List.eq_nil_of_length_eq_zero length]
  | cons part parts ih =>
      cases part with
      | verbatim text => simpa [withAnswers, class?] using ih length
      | classArray dimensions className =>
          rcases List.exists_cons_of_length_eq_add_one length with ⟨flag, others, rfl⟩
          have later := ih (Nat.succ.inj length)
          cases flag with
          | false => simpa [withAnswers, class?] using later
          | true => simp [withAnswers, class?]

/-- A flattened component keeps its dimensions. -/
theorem flattenedText_classArray (count : Nat) (className : String) :
    (classArray (count + 1) className).flattenedText =
      String.ofList (List.replicate (count + 1) '[') ++ valueElementDescriptor className := by
  apply String.toList_inj.1
  simp [flattenedText, valueArrayDescriptor, List.replicate_succ']

/-- Components that stand for a part of a descriptor: an array of a class that is
asked about, or text that is left alone. -/
inductive StandsFor (text flatText : String) : Option String → List Component → Prop
  | verbatim (texts : List (List Char)) (spelled : text.toList = texts.flatten) :
      StandsFor text flatText none (texts.map .verbatim)
  | classArray {dimensions : Nat} {className : String}
      (isText : text = (Component.classArray dimensions className).text)
      (isFlat : flatText = (Component.classArray dimensions className).flattenedText) :
      StandsFor text flatText (some className) [.classArray dimensions className]

/-- The class that is asked about when a type stands behind brackets. -/
def classBehind : (brackets : Nat) → FieldType → Option String
  | 0, type => type.arrayClass?
  | _ + 1, type => type.elementClass?

theorem standsFor_ofType (count : Nat) (type : FieldType) :
    StandsFor (String.ofList (List.replicate count '[') ++ type.text)
      (String.ofList (List.replicate count '[') ++ type.flatText)
      (classBehind count type) (ofType count type) := by
  induction type generalizing count with
  | primitive type =>
      cases count with
      | zero => exact .verbatim [_] (by simp [FieldType.toList_text_primitive])
      | succ count =>
          exact .verbatim [_, _] (by simp [FieldType.toList_text_primitive])
  | object name =>
      cases count with
      | zero => exact .verbatim [_] (by simp [FieldType.toList_text_object])
      | succ count =>
          refine .classArray ?_ ?_
          · simp [FieldType.text, Component.text, String.append_assoc]
          · exact (flattenedText_classArray count name).symm
  | array element ih =>
      have moved (text : String) : String.ofList (List.replicate count '[') ++ ("[" ++ text) =
          String.ofList (List.replicate (count + 1) '[') ++ text := by
        apply String.toList_inj.1
        simp [List.replicate_succ']
      have inner := ih (count + 1)
      rw [← moved, ← moved] at inner
      cases count <;> exact inner

theorem standsFor_ofPart (part : DescriptorPart) :
    StandsFor part.text part.flatText part.arrayClass? (ofPart part) := by
  cases part with
  | opening => exact .verbatim [_] rfl
  | closing => exact .verbatim [_] rfl
  | ofType type =>
      have stands := standsFor_ofType 0 type
      rwa [List.replicate_zero, String.ofList_nil, String.empty_append, String.empty_append]
        at stands

theorem filterMap_class?_ofPart (parts : List DescriptorPart) :
    (parts.flatMap ofPart).filterMap class? = parts.filterMap DescriptorPart.arrayClass? := by
  induction parts with
  | nil => rfl
  | cons part parts ih =>
      have stands := standsFor_ofPart part
      rw [List.flatMap_cons, List.filterMap_append, ih, List.filterMap_cons]
      generalize part.arrayClass? = class?, ofPart part = components at stands
      cases stands with
      | verbatim => simp [class?]
      | classArray => rfl

/-- A component as it comes out. -/
def outcome (answered : Component × Bool) : String :=
  if answered.2 then answered.1.flattenedText else answered.1.text

theorem withAnswers_verbatim (texts : List (List Char)) (rest : List Component)
    (flags : List Bool) :
    withAnswers (texts.map .verbatim ++ rest) flags =
      texts.map (fun text => (.verbatim text, false)) ++ withAnswers rest flags := by
  induction texts with
  | nil => rfl
  | cons text texts ih => simp [withAnswers, class?, ih]

/-- The components of a descriptor come out as its parts do. -/
theorem join_withAnswers (parts : List DescriptorPart) (flags : List Bool) :
    String.join ((withAnswers (parts.flatMap ofPart) flags).map outcome) =
      String.join (DescriptorPart.texts parts flags) := by
  induction parts generalizing flags with
  | nil => rfl
  | cons part parts ih =>
      have stands := standsFor_ofPart part
      rw [List.flatMap_cons]
      generalize asked : part.arrayClass? = class?, ofPart part = components at stands
      cases stands with
      | verbatim texts spelled =>
          have same : String.join (texts.map String.ofList) = part.text := by
            apply String.toList_inj.1
            simp [spelled, List.flatMap_map]
          have plain : outcome ∘ (fun text => (Component.verbatim text, false)) =
              String.ofList :=
            rfl
          have kept : DescriptorPart.texts (part :: parts) flags =
              part.text :: DescriptorPart.texts parts flags := by
            simp [DescriptorPart.texts, asked]
          rw [kept, withAnswers_verbatim, List.map_append, List.map_map, plain, String.join_append,
            String.join_cons, same, ih]
      | classArray isText isFlat =>
          cases flags with
          | nil => simp [withAnswers, class?, DescriptorPart.texts, outcome, asked, isText, ih]
          | cons flag flags =>
              cases flag <;>
                simp [withAnswers, class?, DescriptorPart.texts, outcome, asked, isText, isFlat, ih]

end Component

/-- A descriptor is flattened part by part, in any monad: its arrays of classes are asked
about in order, and the answers alone decide what comes out. -/
theorem flattenDescriptor_text {m : Type → Type} [Monad m] [LawfulMonad m]
    (capable : String → m Bool) {descriptor : Descriptor}
    (named : ∀ name ∈ descriptor.classNames, ';' ∉ name.toList) :
    flattenDescriptor capable descriptor.text = do
      let flags ← descriptor.arrayClasses.mapM capable
      return descriptor.flattened? flags := by
  have parts : Component.split descriptor.text.toList =
      descriptor.parts.flatMap Component.ofPart := by
    rw [descriptor.text_eq_join]
    refine Component.split_parts fun part isPart name isName => named name ?_
    exact List.mem_filterMap.2 ⟨part, isPart, isName⟩
  rw [flattenDescriptor, parts, Component.mapM_asks, bind_assoc,
    Component.filterMap_class?_ofPart]
  refine Component.mapM_bind_congr fun flags length => ?_
  rw [← Component.filterMap_class?_ofPart] at length
  have isFlat := Component.any_withAnswers length
  rw [pure_bind, Descriptor.flattened?]
  split
  · next anyFlat =>
      rw [if_pos (isFlat.1 anyFlat), ← Component.join_withAnswers]
      rfl
  · next noneFlat => rw [if_neg fun found => noneFlat (isFlat.2 found)]

/-! ## A callback with a record -/

/-- A callback that keeps a record of what it is asked. Its answers may depend on the
record. -/
def recorded {ε : Type} (answer : List String → String → Except ε Bool) (name : String) :
    ExceptT ε (StateM (List String)) Bool :=
  ExceptT.mk fun asked => (answer asked name, asked ++ [name])

/-- What a callback would answer to questions in a row, whether or not some of them
fail. -/
def replies {ε : Type} (answer : List String → String → Except ε Bool) :
    (asked questions : List String) → List (Except ε Bool)
  | _, [] => []
  | asked, name :: rest => answer asked name :: replies answer (asked ++ [name]) rest

namespace Recorded

variable {ε α β : Type} {answer : List String → String → Except ε Bool}
  {first : ExceptT ε (StateM (List String)) α} {next : α → ExceptT ε (StateM (List String)) β}
  {asked between : List String}

@[simp]
theorem run_recorded (answer : List String → String → Except ε Bool) (asked : List String)
    (name : String) : (recorded answer name).run.run asked = (answer asked name, asked ++ [name]) :=
  rfl

theorem bind_of_ok {value : α} (ran : first.run.run asked = (.ok value, between)) :
    (first >>= next).run.run asked = (next value).run.run between := by
  rw [ExceptT.run_bind, StateT.run_bind, ran]
  rfl

theorem bind_of_error {error : ε} (ran : first.run.run asked = (.error error, between)) :
    (first >>= next).run.run asked = (.error error, between) := by
  rw [ExceptT.run_bind, StateT.run_bind, ran]
  rfl

/-- Where no question fails all are asked. -/
theorem mapM_of_ok {questions : List String} {flags : List Bool}
    (answered : replies answer asked questions = flags.map .ok) :
    (questions.mapM (recorded answer)).run.run asked = (.ok flags, asked ++ questions) := by
  induction questions generalizing asked flags with
  | nil =>
      cases List.map_eq_nil_iff.1 answered.symm
      rw [List.mapM_nil, List.append_nil]
      rfl
  | cons name questions ih =>
      rcases List.map_eq_cons_iff.1 answered.symm with ⟨flag, others, rfl, here, later⟩
      have ran := run_recorded answer asked name
      rw [← here] at ran
      rw [List.mapM_cons, bind_of_ok ran, bind_of_ok (ih later.symm), List.append_assoc]
      rfl

/-- Where a question fails none is asked after it. -/
theorem mapM_of_error {questions : List String} {flags : List Bool} {error : ε}
    {rest : List (Except ε Bool)}
    (answered : replies answer asked questions = flags.map .ok ++ .error error :: rest) :
    (questions.mapM (recorded answer)).run.run asked =
      (.error error, asked ++ questions.take (flags.length + 1)) := by
  induction questions generalizing asked flags with
  | nil => cases List.append_ne_nil_of_right_ne_nil _ (List.cons_ne_nil _ _) answered.symm
  | cons name questions ih =>
      have ran := run_recorded answer asked name
      cases flags with
      | nil =>
          rw [(List.cons.inj answered).1] at ran
          rw [List.mapM_cons, bind_of_error ran]
          simp
      | cons flag flags =>
          rcases List.cons.inj answered with ⟨here, later⟩
          rw [here] at ran
          rw [List.mapM_cons, bind_of_ok ran, bind_of_error (ih later)]
          simp

end Recorded

/-- Flattening the text of a descriptor is flattening the descriptor. In any monad its
arrays of classes are asked about, once each and in order, and nothing else is; what
comes out depends on the answers alone. So a callback that keeps a record has all of
them on it if it does not fail, and up to the first failure if it does. -/
theorem flattenDescriptor_structural (descriptor : Descriptor)
    (named : ∀ name ∈ descriptor.classNames, name ≠ "" ∧ ';' ∉ name.toList) :
    (∀ (m : Type → Type) [Monad m] [LawfulMonad m] (capable : String → m Bool),
      flattenDescriptor capable descriptor.text = do
        let flags ← descriptor.arrayClasses.mapM capable
        return descriptor.flattened? flags) ∧
    ∀ (ε : Type) (answer : List String → String → Except ε Bool),
      (∀ flags : List Bool, replies answer [] descriptor.arrayClasses = flags.map .ok →
        (flattenDescriptor (recorded answer) descriptor.text).run.run [] =
          (.ok (descriptor.flattened? flags), descriptor.arrayClasses)) ∧
      (∀ (flags : List Bool) (error : ε) (rest : List (Except ε Bool)),
        replies answer [] descriptor.arrayClasses = flags.map .ok ++ .error error :: rest →
        (flattenDescriptor (recorded answer) descriptor.text).run.run [] =
          (.error error, descriptor.arrayClasses.take (flags.length + 1))) := by
  have delimited : ∀ name ∈ descriptor.classNames, ';' ∉ name.toList :=
    fun name isName => (named name isName).2
  refine ⟨fun m _ _ capable => flattenDescriptor_text capable delimited, fun ε answer => ⟨?_, ?_⟩⟩
  · intro flags answered
    rw [flattenDescriptor_text _ delimited, Recorded.bind_of_ok (Recorded.mapM_of_ok answered)]
    rfl
  · intro flags error rest answered
    rw [flattenDescriptor_text _ delimited,
      Recorded.bind_of_error (Recorded.mapM_of_error answered)]
    rfl

/-- Whether an array of a class is flattened depends on the answer for this array. -/
theorem flattenDescriptor_structural_points :
    (flattenDescriptor (recorded fun asked _ => (.ok asked.isEmpty : Except Unit Bool))
        "([[Lgeom/Point;Lgeom/Point;[I)[Lgeom/Point;").run.run [] =
      (.ok (some "([[Qgeom/Point$Value;Lgeom/Point;[I)[Lgeom/Point;"),
        ["geom/Point", "geom/Point"]) ∧
    (flattenDescriptor (recorded fun _ _ => .error ())
        "([[Lgeom/Point;Lgeom/Point;[I)[Lgeom/Point;").run.run [] =
      (.error (), ["geom/Point"]) := by
  let point : FieldType := .object "geom/Point"
  have structural := flattenDescriptor_structural
    (.method ⟨[.array (.array point), point, .array (.primitive .int)], .array point⟩)
    (by decide +kernel)
  have isText : Descriptor.text
      (.method ⟨[.array (.array point), point, .array (.primitive .int)], .array point⟩) =
        "([[Lgeom/Point;Lgeom/Point;[I)[Lgeom/Point;" := by
    decide +kernel
  rw [isText] at structural
  rcases structural with ⟨_, runs⟩
  exact ⟨(runs _ _).1 [true, false] rfl, (runs _ _).2 [] () [.error ()] rfl⟩

end ValueForm
