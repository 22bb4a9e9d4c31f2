import ValueForm.Conversion.Class
import ValueForm.Proofs.Flattening.Emission
import ValueForm.Proofs.Inquiry

/-!
# Conversions that succeed

A conversion of a class that succeeds, taken apart: the code that each method is
left with, and the pool that the methods leave one after the other. Constants
are only added on the way.
-/

namespace ValueForm

variable {answers : String → Except OracleError Bool}

/-! ## Constructors -/

theorem ConstantPool.Grows.elementClass? {first second : ConstantPool}
    (grows : first.Grows second) {index : UInt16} {element : String}
    (found : first.elementClass? index = some element) :
    second.elementClass? index = some element := by
  simp only [ConstantPool.elementClass?, Option.bind_eq_bind, Option.bind_eq_some_iff] at *
  rcases found with ⟨name, named, isElement⟩
  exact ⟨name, grows.className? named, isElement⟩

/-- What stands for an instruction of a constructor: an array of a value-capable
class becomes an array of values, and everything else stays as it is. -/
inductive ArrayForm (answers : String → Except OracleError Bool) (pool : ConstantPool) :
    Instruction → Instruction → Prop
  | kept (instruction : Instruction) : ArrayForm answers pool instruction instruction
  | flat {index moved : UInt16} {element : String}
      (isElement : pool.elementClass? index = some element)
      (isCapable : answers element = .ok true)
      (named : pool.NamesClass moved (valueClassName element)) :
      ArrayForm answers pool (.newReferenceArray index) (.newReferenceArray moved)

/-- The instruction creates no array of a value-capable class, as far as the pool
tells. -/
def Instruction.CreatesNoValues (answers : String → Except OracleError Bool)
    (options : ConvertOptions) (pool : ConstantPool) (instruction : Instruction) : Prop :=
  options.flatArrays = true → ∀ index element, instruction = .newReferenceArray index →
    pool.elementClass? index = some element → answers element = .ok false

/-- What stands for an instruction of a constructor, told from the pool before and
the pool after: every array of a value-capable class becomes one of values. -/
inductive Instruction.InPlace (answers : String → Except OracleError Bool)
    (options : ConvertOptions) (old new : ConstantPool) : Instruction → Instruction → Prop
  | kept {instruction : Instruction}
      (others : instruction.CreatesNoValues answers options old) :
      InPlace answers options old new instruction instruction
  | flat {index moved : UInt16} {element : String} (isFlat : options.flatArrays = true)
      (isOld : ∀ other, old.elementClass? index = some other → other = element)
      (isElement : new.elementClass? index = some element)
      (isCapable : answers element = .ok true)
      (named : new.NamesClass moved (valueClassName element)) :
      InPlace answers options old new (.newReferenceArray index) (.newReferenceArray moved)

section InPlace

variable {options : ConvertOptions} {old old' new new' : ConstantPool}
  {instruction form : Instruction}

theorem Instruction.CreatesNoValues.mono
    (others : instruction.CreatesNoValues answers options old) (earlier : old'.Grows old) :
    instruction.CreatesNoValues answers options old' :=
  fun isFlat index element isArray isElement =>
    others isFlat index element isArray (earlier.elementClass? isElement)

theorem ConstantPool.NamesClass.mono {index : UInt16} {name : String}
    (named : new.NamesClass index name) (later : new.Grows new') : new'.NamesClass index name :=
  fun few => later.className? (named (Nat.le_trans later.size_le few))

theorem Instruction.InPlace.mono (inPlace : instruction.InPlace answers options old new form)
    (earlier : old'.Grows old) (later : new.Grows new') :
    instruction.InPlace answers options old' new' form := by
  cases inPlace with
  | kept others => exact .kept (others.mono earlier)
  | flat isFlat isOld isElement isCapable named =>
      exact .flat isFlat (fun other isOther => isOld other (earlier.elementClass? isOther))
        (later.elementClass? isElement) isCapable (named.mono later)

theorem Instruction.InPlace.arrayForm (inPlace : instruction.InPlace answers options old new form) :
    ArrayForm answers new instruction form := by
  cases inPlace with
  | kept => exact .kept _
  | flat _ _ isElement isCapable named => exact .flat isElement isCapable named

end InPlace

theorem substituteArrays_cons (options : ConvertOptions) {located : Located}
    {rest : List Located} {done : List Instruction} {pool : ConstantPool} {changed : Bool}
    {out : List Instruction × ConstantPool × Bool}
    (substituted : (substituteArrays (located :: rest) done pool changed).eval answers = .ok out) :
    (located.instruction.CreatesNoValues answers options pool ∧
      (substituteArrays rest (located.instruction :: done) pool changed).eval answers =
        .ok out) ∨
    ∃ index element, located.instruction = .newReferenceArray index ∧
      pool.elementClass? index = some element ∧ answers element = .ok true ∧
      (substituteArrays rest
        (.newReferenceArray (pool.internClass (valueClassName element)).1 :: done)
        (pool.internClass (valueClassName element)).2 true).eval answers = .ok out := by
  unfold substituteArrays at substituted
  split at substituted
  · next index isArray =>
      split at substituted
      · next element named =>
          rcases Inquiry.eval_bind_eq_ok_iff.1 substituted with ⟨capable, answered, substituted⟩
          rw [Inquiry.eval_capable_eq_ok_iff] at answered
          cases capable with
          | true => exact .inr ⟨index, element, isArray, named, answered, substituted⟩
          | false =>
              refine .inl ⟨?_, substituted⟩
              intro _ other name isOther isElement
              cases isArray.symm.trans isOther
              cases named.symm.trans isElement
              exact answered
      · next unnamed =>
          refine .inl ⟨?_, substituted⟩
          intro _ other name isOther isElement
          cases isArray.symm.trans isOther
          cases unnamed.symm.trans isElement
  · next isOther =>
      refine .inl ⟨?_, substituted⟩
      intro _ index element isArray
      exact absurd isArray (isOther index)

/-- What the substitution of arrays gives. -/
theorem substituteArrays_spec {options : ConvertOptions} (isFlat : options.flatArrays = true)
    {instructions : List Located} {done result : List Instruction} {pool last : ConstantPool}
    {changed changed' : Bool}
    (substituted : (substituteArrays instructions done pool changed).eval answers =
      .ok (result, last, changed')) :
    pool.Interns last ∧
      (changed' = true → changed = true ∨ ∃ element, answers element = .ok true) ∧
      (changed' = false → changed = false ∧ ∀ located ∈ instructions,
        located.instruction.CreatesNoValues answers options pool) ∧
      ∃ forms, result = done.reverse ++ forms ∧
        List.Forall₂ (fun located => located.instruction.InPlace answers options pool last)
          instructions forms := by
  induction instructions generalizing done pool changed with
  | nil =>
      rw [substituteArrays, Inquiry.eval_pure_eq_ok_iff] at substituted
      cases substituted
      exact ⟨.refl, .inl, fun unchanged => ⟨unchanged, by simp⟩, [], (List.append_nil _).symm, .nil⟩
  | cons located rest ih =>
      rcases substituteArrays_cons options substituted with
        ⟨others, substituted⟩ | ⟨index, element, isArray, isElement, isCapable, substituted⟩
      · rcases ih substituted with ⟨interns, isChange, isSame, forms, rfl, each⟩
        refine ⟨interns, isChange, ?_, located.instruction :: forms, by simp,
          .cons (.kept others) each⟩
        exact fun unchanged => ⟨(isSame unchanged).1,
          List.forall_mem_cons.2 ⟨others, (isSame unchanged).2⟩⟩
      · rcases ih substituted with ⟨interns, _, isSame, forms, rfl, each⟩
        have asked := (ConstantPool.finds_internClass (valueClassName element)).interns pool
        have whole := asked.trans interns
        refine ⟨whole, fun _ => .inr ⟨element, isCapable⟩, ?_,
          .newReferenceArray (pool.internClass (valueClassName element)).1 :: forms, by simp,
          .cons ?_ (each.imp fun _ _ inPlace => inPlace.mono asked.grows (.refl _))⟩
        · intro unchanged
          cases (isSame unchanged).1
        · have named : (pool.internClass (valueClassName element)).2.NamesClass
              (pool.internClass (valueClassName element)).1 (valueClassName element) :=
            (pool.internClass_spec (valueClassName element)).2
          rw [isArray]
          refine .flat isFlat ?_ (whole.grows.elementClass? isElement) isCapable
            (named.mono interns.grows)
          intro other isOther
          cases isElement.symm.trans isOther
          rfl

namespace MethodBody

variable {body : MethodBody} {options : ConvertOptions}

/-- What the conversion of a constructor gives, instruction by instruction. -/
theorem convertConstructor_inPlace {pool last : ConstantPool} {code? : Option CodeAttribute}
    (converted : (body.convertConstructor pool options).eval answers = .ok (code?, last)) :
    pool.Interns last ∧
      (code? = none → ∀ located ∈ body.instructions.toList,
        located.instruction.CreatesNoValues answers options pool) ∧
      ∀ code, code? = some code → (∃ element, answers element = .ok true) ∧
        ∃ forms, code = { body.code with code := Code.encode forms } ∧
          List.Forall₂ (fun located => located.instruction.InPlace answers options pool last)
            body.instructions.toList forms := by
  unfold convertConstructor at converted
  split at converted
  · next isFlat =>
      rcases Inquiry.eval_bind_eq_ok_iff.1 converted with
        ⟨⟨instructions, pool', changed⟩, substituted, ended⟩
      rcases substituteArrays_spec isFlat substituted with
        ⟨interns, isChange, isSame, forms, isForms, each⟩
      rw [List.reverse_nil, List.nil_append] at isForms
      dsimp only at ended
      split at ended
      · next isChanged =>
          cases Inquiry.eval_pure_eq_ok_iff.1 ended
          refine ⟨interns, fun isNone => (by cases isNone), ?_⟩
          intro code isSome
          obtain rfl := Option.some.inj isSome
          exact ⟨(isChange isChanged).resolve_left Bool.false_ne_true, forms, by rw [isForms],
            each⟩
      · next isUnchanged =>
          cases Inquiry.eval_pure_eq_ok_iff.1 ended
          exact ⟨interns, fun _ => (isSame (Bool.eq_false_of_not_eq_true isUnchanged)).2,
            fun code isSome => by cases isSome⟩
  · next notFlat =>
      cases Inquiry.eval_pure_eq_ok_iff.1 converted
      exact ⟨.refl, fun _ _ _ isFlat => absurd isFlat notFlat, fun code isSome => by cases isSome⟩

/-- What the conversion of a constructor gives. -/
theorem convertConstructor_spec {pool last : ConstantPool} {code? : Option CodeAttribute}
    (converted : (body.convertConstructor pool options).eval answers = .ok (code?, last)) :
    pool.Interns last ∧ ∀ code, code? = some code → (∃ element, answers element = .ok true) ∧
      ∃ forms, code = { body.code with code := Code.encode forms } ∧
        List.Forall₂ (fun located => ArrayForm answers last located.instruction)
          body.instructions.toList forms := by
  rcases convertConstructor_inPlace converted with ⟨interns, _, given⟩
  refine ⟨interns, fun code isSome => ?_⟩
  rcases given code isSome with ⟨isCapable, forms, isCode, each⟩
  exact ⟨isCapable, forms, isCode, each.imp fun _ _ inPlace => inPlace.arrayForm⟩

/-- What the conversion of a method that is no constructor gives. -/
theorem convert_cases {classFile : ClassFile} {name : String} {code? : Option CodeAttribute}
    {last : ConstantPool}
    (converted : (body.convert classFile name options).eval answers = .ok (code?, last)) :
    ∃ analysis, (body.analyze classFile options.flatArrays).eval answers = .ok analysis ∧
      ((code? = none ∧ last = classFile.pool) ∨
        analysis.registry.isEmpty = false ∧ ∃ code bench,
          body.flatten classFile.thisClass analysis { pool := classFile.pool } = .ok code bench ∧
          code? = some code ∧ last = bench.pool) := by
  rcases Inquiry.eval_bind_eq_ok_iff.1 converted with ⟨analysis, analyzed, converted⟩
  refine ⟨analysis, Inquiry.eval_mapError_eq_ok_iff.1 analyzed, ?_⟩
  split at converted
  · cases Inquiry.eval_pure_eq_ok_iff.1 converted
    exact .inl ⟨rfl, rfl⟩
  · next notEmpty =>
      rcases Inquiry.eval_bind_eq_ok_iff.1 converted with ⟨_, _, converted⟩
      split at converted
      · next code bench flattened =>
          rcases Inquiry.eval_bind_eq_ok_iff.1 converted with ⟨_, _, ended⟩
          cases Inquiry.eval_pure_eq_ok_iff.1 ended
          exact .inr ⟨Bool.eq_false_iff.2 notEmpty, code, bench, flattened, rfl, rfl⟩
      · rcases Inquiry.eval_bind_eq_ok_iff.1 converted with ⟨_, _, ended⟩
        cases Inquiry.eval_fail_eq_ok_iff.1 ended

end MethodBody

/-! ## Methods -/

/-- A method with other code in one of its attributes. -/
def Member.withCode (method : Member) (position : Nat) (code : CodeAttribute) : Member :=
  { method with
    attributes := method.attributes.modify position fun item => { item with info := code.toBytes } }

namespace ClassFile

variable {options : ConvertOptions}

/-- The body that is converted for a method, with the place of its code among
the attributes. -/
structure HasBody (classFile : ClassFile) (method : Member) (position : Nat)
    (body : MethodBody) : Prop where
  code : ∃ item rest, method.attributes[position]? = some item ∧
    item.isNamed classFile.pool Attribute.codeName = true ∧
    CodeAttribute.read item.info = .ok (body.code, rest)
  decoded : Code.decode body.code.code = .ok body.instructions.toList
  descriptor : classFile.pool.text? method.descriptor = some body.descriptor
  isStatic : body.isStatic = method.isStatic

/-- The code that was converted takes the place of the old code. -/
theorem exists_converted {method : Member} {position : Nat} {converted : Option Member}
    {last : ConstantPool}
    {inquiry : Inquiry ConvertError (Option CodeAttribute × ConstantPool)}
    (succeeded : (inquiry >>= fun outcome =>
      match outcome.1 with
      | none => pure (none, outcome.2)
      | some code => pure (some (method.withCode position code), outcome.2)).eval answers =
        .ok (converted, last)) :
    ∃ code?, inquiry.eval answers = .ok (code?, last) ∧
      converted = code?.map (method.withCode position) := by
  rcases Inquiry.eval_bind_eq_ok_iff.1 succeeded with ⟨⟨code?, pool⟩, converts, ended⟩
  cases code? with
  | none =>
      cases Inquiry.eval_pure_eq_ok_iff.1 ended
      exact ⟨none, converts, rfl⟩
  | some code =>
      cases Inquiry.eval_pure_eq_ok_iff.1 ended
      exact ⟨some code, converts, rfl⟩

/-- What the conversion of a method gives, by its first code and whether it is a
constructor. -/
theorem convertMethod_first {classFile : ClassFile} {method : Member} {converted : Option Member}
    {last : ConstantPool}
    (succeeded : (classFile.convertMethod method options).eval answers = .ok (converted, last)) :
    (method.attributes.findIdx? (·.isNamed classFile.pool Attribute.codeName) = none ∧
        converted = none ∧ last = classFile.pool) ∨
      ∃ position body code?,
        method.attributes.findIdx? (·.isNamed classFile.pool Attribute.codeName) =
          some position ∧
        classFile.HasBody method position body ∧
        (classFile.pool.text? method.name = some constructorName ∧
            (body.convertConstructor classFile.pool options).eval answers = .ok (code?, last) ∨
          classFile.pool.text? method.name ≠ some constructorName ∧
            ∃ name, (body.convert classFile name options).eval answers = .ok (code?, last)) ∧
        converted = code?.map (method.withCode position) := by
  unfold convertMethod at succeeded
  dsimp only at succeeded
  split at succeeded
  · cases Inquiry.eval_fail_eq_ok_iff.1 succeeded
  · next descriptor described =>
      split at succeeded
      · next noCode =>
          cases Inquiry.eval_pure_eq_ok_iff.1 succeeded
          exact .inl ⟨noCode, rfl, rfl⟩
      · next position isCode =>
          rcases List.findIdx?_eq_some_iff_getElem.1 isCode with ⟨inRange, isNamed, _⟩
          have atPosition := List.getElem?_eq_getElem inRange
          rw [atPosition] at succeeded
          split at succeeded
          · cases Inquiry.eval_fail_eq_ok_iff.1 succeeded
          · next code rest isRead =>
              split at succeeded
              · cases Inquiry.eval_fail_eq_ok_iff.1 succeeded
              · next instructions decoded =>
                  have hasBody : classFile.HasBody method position
                      ⟨method.isStatic, descriptor, code, instructions.toArray⟩ :=
                    ⟨⟨_, rest, atPosition, isNamed, isRead⟩, decoded, described, rfl⟩
                  split at succeeded
                  · next isConstructor =>
                      rcases exists_converted succeeded with ⟨code?, converts, same⟩
                      refine .inr ⟨position, _, code?, isCode, hasBody, .inl ⟨?_, converts⟩, same⟩
                      cases isName : classFile.pool.text? method.name with
                      | none =>
                          rw [isName] at isConstructor
                          exact absurd isConstructor (by decide)
                      | some name =>
                          rw [isName] at isConstructor
                          rw [← isConstructor, Option.getD_some]
                  · next isOther =>
                      rcases exists_converted succeeded with ⟨code?, converts, same⟩
                      refine .inr ⟨position, _, code?, isCode, hasBody,
                        .inr ⟨fun isName => isOther ?_, _, converts⟩, same⟩
                      rw [isName, Option.getD_some]

/-- What the conversion of a method gives. -/
theorem convertMethod_cases {classFile : ClassFile} {method : Member} {converted : Option Member}
    {last : ConstantPool}
    (succeeded : (classFile.convertMethod method options).eval answers = .ok (converted, last)) :
    (converted = none ∧ last = classFile.pool) ∨
      ∃ position body code? name, classFile.HasBody method position body ∧
        ((body.convertConstructor classFile.pool options).eval answers = .ok (code?, last) ∨
          (body.convert classFile name options).eval answers = .ok (code?, last)) ∧
        converted = code?.map (method.withCode position) := by
  rcases convertMethod_first succeeded with
    ⟨_, unchanged⟩ | ⟨position, body, code?, _, hasBody, ⟨_, converts⟩ | ⟨_, name, converts⟩, same⟩
  · exact .inl unchanged
  · exact .inr ⟨position, body, code?, "", hasBody, .inl converts, same⟩
  · exact .inr ⟨position, body, code?, name, hasBody, .inr converts, same⟩

/-- Methods that were converted one after the other, each with the pool that the
one before it left. -/
inductive MethodsConverted (answers : String → Except OracleError Bool)
    (options : ConvertOptions) : ClassFile → List Member → List (Option Member) →
    ConstantPool → Prop
  | nil (classFile : ClassFile) :
      MethodsConverted answers options classFile [] [] classFile.pool
  | cons {classFile : ClassFile} {method : Member} {methods : List Member}
      {converted : Option Member} {others : List (Option Member)} {pool last : ConstantPool}
      (here : (classFile.convertMethod method options).eval answers = .ok (converted, pool))
      (rest : MethodsConverted answers options { classFile with pool } methods others last) :
      MethodsConverted answers options classFile (method :: methods) (converted :: others) last

/-- What the conversion of the methods of a class gives. -/
theorem convertMethods_spec {methods done : List Member} {changed changed' : Bool}
    {classFile last : ClassFile}
    (succeeded : (convertMethods options methods done changed classFile).eval answers =
      .ok (last, changed')) :
    ∃ outcomes pool, MethodsConverted answers options classFile methods outcomes pool ∧
      last = { classFile with
        pool, methods := done.reverse ++ List.zipWith Option.getD outcomes methods } ∧
      changed' = (changed || outcomes.any Option.isSome) := by
  induction methods generalizing done changed classFile with
  | nil =>
      rw [convertMethods, Inquiry.eval_pure_eq_ok_iff] at succeeded
      cases succeeded
      exact ⟨[], classFile.pool, .nil classFile, by simp, by simp⟩
  | cons method methods ih =>
      rcases Inquiry.eval_bind_eq_ok_iff.1 succeeded with ⟨⟨converted, pool⟩, here, succeeded⟩
      rcases ih succeeded with ⟨outcomes, last, rest, rfl, rfl⟩
      exact ⟨converted :: outcomes, last, .cons here rest, by simp, by simp [Bool.or_assoc]⟩

/-- A class with the methods and the pool that their conversion leaves. -/
def withMethods (classFile : ClassFile) (outcomes : List (Option Member)) (pool : ConstantPool) :
    ClassFile :=
  { classFile with pool, methods := List.zipWith Option.getD outcomes classFile.methods }

/-- The descriptors of a class are flattened if arrays of values are wanted. -/
def describe? (classFile : ClassFile) (options : ConvertOptions) :
    Inquiry ConvertError (Option ClassFile) :=
  if options.flatArrays then classFile.flattenDescriptors? else pure none

/-- What the conversion of a class gives: the bytes it was given if nothing has
changed, and else the class with its methods converted and its descriptors
flattened. -/
theorem convert_cases {bytes out : Bytes}
    (converted : (convert bytes options).eval answers = .ok out) :
    ∃ classFile outcomes pool described, parse bytes = .ok classFile ∧
      MethodsConverted answers options classFile classFile.methods outcomes pool ∧
      ((classFile.withMethods outcomes pool).describe? options).eval answers = .ok described ∧
      out = if outcomes.any Option.isSome || described.isSome then
          (described.getD (classFile.withMethods outcomes pool)).syncCounts.toBytes
        else bytes := by
  rcases Inquiry.eval_bind_eq_ok_iff.1 converted with ⟨classFile, parsed, converted⟩
  rcases Inquiry.eval_bind_eq_ok_iff.1 converted with ⟨⟨last, changed⟩, methods, converted⟩
  rcases convertMethods_spec methods with ⟨outcomes, pool, each, rfl, rfl⟩
  dsimp only at converted
  have describes : ∃ described,
      ((classFile.withMethods outcomes pool).describe? options).eval answers = .ok described ∧
      (if outcomes.any Option.isSome || described.isSome then do
        Inquiry.leave (.classConverted (classFile.withMethods outcomes pool).displayName)
        return (described.getD (classFile.withMethods outcomes pool)).syncCounts.toBytes
      else return bytes : Inquiry ConvertError Bytes).eval answers = .ok out := by
    unfold describe?
    split at converted
    · next isFlat =>
        rw [if_pos isFlat]
        exact Inquiry.eval_bind_eq_ok_iff.1 converted
    · next isNotFlat =>
        rw [if_neg isNotFlat]
        exact Inquiry.eval_bind_eq_ok_iff.1 converted
  rcases describes with ⟨described, describes, ended⟩
  refine ⟨classFile, outcomes, pool, described, ?_, each, describes, ?_⟩
  · rw [Inquiry.eval_ofExcept] at parsed
    cases outcome : parse bytes with
    | ok classFile =>
        rw [outcome] at parsed
        cases parsed
        rfl
    | error error =>
        rw [outcome] at parsed
        cases parsed
  · split at ended
    · next isChanged =>
        rcases Inquiry.eval_bind_eq_ok_iff.1 ended with ⟨_, _, ended⟩
        rw [if_pos isChanged, Inquiry.eval_pure_eq_ok_iff.1 ended]
    · next isSame => rw [if_neg isSame, Inquiry.eval_pure_eq_ok_iff.1 ended]

end ClassFile

end ValueForm
