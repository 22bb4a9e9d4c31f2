import ValueForm.Proofs.Conversion.Preservation
import ValueForm.Proofs.Instruction.Padding

/-!
# Constructors stay as they are laid out

The tables of a constructor are not relocated. They need not be: whatever the
conversion does to its code, every instruction stays at its address. Instructions
stay the same, but that an array of a value-capable class becomes one of values,
and of the tables only those of local variables can change, when descriptors are
flattened.

The code that is meant is the first that the name finds. It is the same one before
and after, because a name that is in the pool gets no second entry.
-/

namespace ValueForm

variable {answers : String → Except OracleError Bool} {options : ConvertOptions}

/-! ## Element classes -/

/-- The element of an array is a class if its name is not that of an array. -/
theorem ConstantPool.elementClass?_eq_some_iff {pool : ConstantPool} {index : UInt16}
    {element : String} :
    pool.elementClass? index = some element ↔ pool.className? index = some element ∧
      element.toList ≠ [] ∧ element.toList.head? ≠ some '[' := by
  simp only [elementClass?, Option.bind_eq_bind, Option.bind_eq_some_iff]
  constructor
  · rintro ⟨name, named, type, isType, isClass⟩
    cases type with
    | primitive | array => cases isClass
    | object other =>
        cases isClass
        unfold FieldType.ofInternalName? at isType
        split at isType
        · cases isType
        · next rest startsArray =>
            rcases FieldType.parse?_eq_some_iff.1 isType with ⟨_, rfl⟩
            rw [FieldType.toList_text_object] at startsArray
            cases startsArray
        · next isSome isOther =>
            cases isType
            refine ⟨named, isSome, fun startsArray => ?_⟩
            rcases List.head?_eq_some_iff.1 startsArray with ⟨rest, isList⟩
            exact isOther rest isList
  · rintro ⟨named, isSome, isOther⟩
    refine ⟨element, named, .object element, ?_, rfl⟩
    unfold FieldType.ofInternalName?
    split
    · next isNone => exact absurd isNone isSome
    · next isArray => exact absurd (by rw [isArray, List.head?_cons]) isOther
    · rfl

/-- Flattening descriptors leaves the element of an array of a class as it is. -/
theorem ConvertOptions.Renames.elementClass? {capable : String → Bool}
    {pool last : ConstantPool} (renames : options.Renames capable pool last) {index : UInt16}
    {element : String} (found : pool.elementClass? index = some element) :
    last.elementClass? index = some element := by
  rw [ConstantPool.elementClass?_eq_some_iff] at found ⊢
  rcases found with ⟨named, isSome, isOther⟩
  refine ⟨?_, isSome, isOther⟩
  rw [renames.className index element named, ConvertOptions.className, flatClassName,
    if_neg isOther, ite_self]

/-! ## Layout -/

namespace Code

variable {relation : Instruction → Instruction → Prop} {instructions forms : List Instruction}
  (sizes : ∀ instruction form, relation instruction form →
    ∀ address, form.size address = instruction.size address)
  (each : List.Forall₂ relation instructions forms)
include sizes each

/-- What is as large as what it stands for has the same address. -/
theorem forall₂_locate (address : Nat) :
    List.Forall₂ (fun here here' => here'.address = here.address ∧
      relation here.instruction here'.instruction)
      (locate address instructions) (locate address forms) := by
  induction each generalizing address with
  | nil => exact .nil
  | @cons instruction form _ _ here _ ih =>
      rw [locate, locate, sizes instruction form here]
      exact .cons ⟨rfl, here⟩ (ih _)

theorem length_encodeFrom_of_forall₂ (address : Nat) :
    (encodeFrom address [] forms).length = (encodeFrom address [] instructions).length := by
  induction each generalizing address with
  | nil => rfl
  | @cons instruction form _ _ here _ ih =>
      rw [encodeFrom_cons, encodeFrom_cons, List.length_append, List.length_append,
        Instruction.length_toBytes, Instruction.length_toBytes, sizes instruction form here, ih]

end Code

namespace Instruction.InPlace

variable {old new : ConstantPool} {instruction form : Instruction}

theorem size_eq (inPlace : instruction.InPlace answers options old new form) (address : Nat) :
    form.size address = instruction.size address := by
  cases inPlace with
  | kept => rfl
  | flat => rfl

theorem wellFormed (inPlace : instruction.InPlace answers options old new form)
    (isWellFormed : instruction.WellFormed) : form.WellFormed := by
  cases inPlace with
  | kept => exact isWellFormed
  | flat => trivial

/-- The class that a converted array has for its elements keeps its name when
descriptors are flattened. -/
theorem renamed {capable : String → Bool} {last : ConstantPool}
    (inPlace : instruction.InPlace answers options old new form)
    (few : new.entries.size ≤ 65535) (renames : options.Renames capable new last) :
    instruction.InPlace answers options old last form := by
  cases inPlace with
  | kept others => exact .kept others
  | flat isFlat isOld isElement isCapable named =>
      exact .flat isFlat isOld (renames.elementClass? isElement) isCapable fun _ =>
        named.valueClass (.refl _) few renames

end Instruction.InPlace

/-! ## Code -/

/-- An attribute of code that stays the same, unless it is a table of local
variables. -/
def Attribute.KeptInCode (pool : ConstantPool) (table table' : Attribute) : Prop :=
  table'.name = table.name ∧
    (pool.text? table.name ≠ some localVariableTableName → table' = table)

theorem Attribute.keptInCode_self (pool : ConstantPool) (tables : List Attribute) :
    List.Forall₂ (KeptInCode pool) tables tables :=
  List.forall₂_same.2 fun _ _ => ⟨rfl, fun _ => rfl⟩

/-- Code of which the instructions stay at their addresses, with everything but
its tables of local variables. -/
structure CodeAttribute.InPlace (answers : String → Except OracleError Bool)
    (options : ConvertOptions) (old new : ConstantPool) (code code' : CodeAttribute) : Prop where
  instructions : ∃ located located', Code.decode code.code = .ok located ∧
    Code.decode code'.code = .ok located' ∧
    List.Forall₂ (fun here here' => here'.address = here.address ∧
      here.instruction.InPlace answers options old new here'.instruction) located located'
  length : code'.code.length = code.code.length
  maxStack : code'.maxStack = code.maxStack
  maxLocals : code'.maxLocals = code.maxLocals
  exceptions : code'.exceptions = code.exceptions
  attributes : List.Forall₂ (Attribute.KeptInCode new) code.attributes code'.attributes

namespace CodeAttribute

variable {old old' new new' : ConstantPool} {code code' code'' : CodeAttribute}
  {located : List Located}

/-- Code that creates no arrays of value-capable classes stays in place. -/
theorem inPlace_self (decoded : Code.decode code.code = .ok located)
    (others : ∀ here ∈ located, here.instruction.CreatesNoValues answers options old) :
    code.InPlace answers options old new code where
  instructions := ⟨located, located, decoded, decoded,
    List.forall₂_same.2 fun here isHere => ⟨rfl, .kept (others here isHere)⟩⟩
  length := rfl
  maxStack := rfl
  maxLocals := rfl
  exceptions := rfl
  attributes := Attribute.keptInCode_self new code.attributes

/-- Instructions that are put in place are laid out where the old ones were. -/
theorem inPlace_encode (decoded : Code.decode code.code = .ok located)
    {forms : List Instruction}
    (each : List.Forall₂ (fun here => here.instruction.InPlace answers options old new)
      located forms) :
    code.InPlace answers options old new { code with code := Code.encode forms } := by
  have length := (Code.encode_decode_off_padding decoded).2.2.2.1
  have wellFormed : ∀ form ∈ forms, form.WellFormed := by
    intro form isForm
    rcases Outcome.exists_of_mem_forall₂ each isForm with ⟨here, isHere, inPlace⟩
    exact inPlace.wellFormed (Code.wellFormed_of_decode decoded here isHere)
  rcases Code.encode_of_decodeFrom decoded with ⟨instructions, isLocated, _⟩
  rw [List.reverse_nil, List.nil_append] at isLocated
  subst isLocated
  rw [Code.map_instruction_locate] at length
  have related : List.Forall₂ (Instruction.InPlace answers options old new) instructions forms := by
    rw [← Code.map_instruction_locate 0 instructions]
    exact List.forall₂_map_left_iff.2 each
  have sizes (instruction form : Instruction)
      (inPlace : instruction.InPlace answers options old new form) := inPlace.size_eq
  refine ⟨⟨_, _, decoded, Code.decode_encode wellFormed, Code.forall₂_locate sizes related 0⟩, ?_,
    rfl, rfl, rfl, Attribute.keptInCode_self new code.attributes⟩
  exact (Code.length_encodeFrom_of_forall₂ sizes related 0).trans length

namespace InPlace

/-- Code in place fits if the old code does. -/
theorem fits_encode (fits : code.Fits) {forms : List Instruction}
    (inPlace : code.InPlace answers options old new { code with code := Code.encode forms }) :
    CodeAttribute.Fits { code with code := Code.encode forms } :=
  ⟨inPlace.length ▸ fits.code, fits.exceptions, fits.attributes⟩

theorem mono (inPlace : code.InPlace answers options old new code') (earlier : old'.Grows old)
    (later : new.Grows new') : code.InPlace answers options old' new' code' where
  instructions := by
    rcases inPlace.instructions with ⟨located, located', decoded, decoded', each⟩
    exact ⟨located, located', decoded, decoded',
      each.imp fun _ _ here => ⟨here.1, here.2.mono earlier later⟩⟩
  length := inPlace.length
  maxStack := inPlace.maxStack
  maxLocals := inPlace.maxLocals
  exceptions := inPlace.exceptions
  attributes := inPlace.attributes.imp fun _ _ here =>
    ⟨here.1, fun isOther => here.2 fun isTable => isOther (later.text? isTable)⟩

/-- Flattening descriptors leaves code in place. -/
theorem redescribed {capable : String → Bool} {last : ConstantPool}
    (inPlace : code.InPlace answers options old new code') (few : new.entries.size ≤ 65535)
    (renames : options.Renames capable new last)
    (texts : ∀ index text, new.text? index = some text → last.text? index = some text)
    (isCode : code'' = { code' with attributes := code''.attributes })
    (tables : List.Forall₂ (Attribute.KeptInCode last) code'.attributes code''.attributes) :
    code.InPlace answers options old last code'' := by
  rw [isCode]
  refine ⟨?_, inPlace.length, inPlace.maxStack, inPlace.maxLocals, inPlace.exceptions, ?_⟩
  · rcases inPlace.instructions with ⟨located, located', decoded, decoded', each⟩
    exact ⟨located, located', decoded, decoded',
      each.imp fun _ _ here => ⟨here.1, here.2.renamed few renames⟩⟩
  · refine (Outcome.forall₂_comp inPlace.attributes tables).imp ?_
    rintro table table'' ⟨table', ⟨name, same⟩, name', same'⟩
    refine ⟨name'.trans name, fun isOther => ?_⟩
    rw [same' (name ▸ isOther), same fun isTable => isOther (texts _ _ isTable)]

end InPlace

end CodeAttribute

/-! ## Names -/

/-- Two pools in which the same entries spell a text. -/
def ConstantPool.SpellAlike (text : String) (first second : ConstantPool) : Prop :=
  ∀ index, second.text? index = some text ↔ first.text? index = some text

namespace ConstantPool.SpellAlike

variable {text : String} {first second : ConstantPool}

theorem of_interns (interns : first.Interns second) {index : UInt16}
    (found : first.text? index = some text) : SpellAlike text first second := by
  rcases exists_textIndex?_of_text? found with ⟨known, isKnown⟩
  exact fun _ => ⟨interns.text?_of_textIndex? isKnown, interns.grows.text?⟩

/-- The name finds the same attributes. -/
theorem isNamed_eq (alike : SpellAlike text first second) :
    Attribute.isNamed second text = Attribute.isNamed first text := by
  funext item
  rw [Bool.eq_iff_iff, Attribute.isNamed, Attribute.isNamed, beq_iff_eq, beq_iff_eq]
  exact alike item.name

end ConstantPool.SpellAlike

theorem Attribute.findIdx?_isNamed {pool : ConstantPool} {name : String}
    {items items' : List Attribute}
    (each : List.Forall₂ (fun item item' => item'.name = item.name) items items') :
    items'.findIdx? (·.isNamed pool name) = items.findIdx? (·.isNamed pool name) := by
  induction each with
  | nil => rfl
  | cons here _ ih => rw [List.findIdx?_cons, List.findIdx?_cons, ih, isNamed, isNamed, here]

/-! ## Methods -/

namespace ClassFile

variable {classFile : ClassFile} {method : Member} {position index : Nat}
  {outcomes : List (Option Member)} {pool : ConstantPool}

/-- A constructor that stays as it is, or that gets other code in place of the one
at a position. -/
def KeepsLayout (answers : String → Except OracleError Bool) (options : ConvertOptions)
    (old new : ConstantPool) (method : Member) (position : Nat) (outcome : Option Member) :
    Prop :=
  ∃ item code rest, method.attributes[position]? = some item ∧
    CodeAttribute.read item.info = .ok (code, rest) ∧
    ((outcome = none ∧ ∀ pool, code.InPlace answers options old pool code) ∨
      ∃ code', outcome = some (method.withCode position code') ∧ code'.Fits ∧
        code.InPlace answers options old new code')

theorem KeepsLayout.mono {old old' new new' : ConstantPool} {outcome : Option Member}
    (keeps : KeepsLayout answers options old new method position outcome)
    (earlier : old'.Grows old) (later : new.Grows new') :
    KeepsLayout answers options old' new' method position outcome := by
  rcases keeps with ⟨item, code, rest, atPosition, reads, given⟩
  refine ⟨item, code, rest, atPosition, reads, given.imp ?_ ?_⟩
  · rintro ⟨unchanged, inPlace⟩
    exact ⟨unchanged, fun pool => (inPlace pool).mono earlier (.refl _)⟩
  · rintro ⟨code', changed, fits, inPlace⟩
    exact ⟨code', changed, fits, inPlace.mono earlier later⟩

/-- What becomes of a constructor when it is converted. -/
theorem keepsLayout_of_convertMethod {outcome : Option Member} {last : ConstantPool}
    (succeeded : (classFile.convertMethod method options).eval answers = .ok (outcome, last))
    (isConstructor : classFile.pool.text? method.name = some constructorName)
    (isFirst : method.attributes.findIdx? (·.isNamed classFile.pool Attribute.codeName) =
      some position) :
    KeepsLayout answers options classFile.pool last method position outcome := by
  rcases convertMethod_first succeeded with
    ⟨noCode, _⟩ | ⟨_, body, code?, isPosition, hasBody, ⟨_, converts⟩ | ⟨isOther, _⟩, isOutcome⟩
  · cases isFirst.symm.trans noCode
  · cases isFirst.symm.trans isPosition
    rcases hasBody.code with ⟨item, rest, atPosition, _, reads⟩
    rcases MethodBody.convertConstructor_inPlace converts with ⟨_, none, some⟩
    refine ⟨item, body.code, rest, atPosition, reads, ?_⟩
    cases code? with
    | none =>
        exact .inl ⟨isOutcome, fun _ => CodeAttribute.inPlace_self hasBody.decoded (none rfl)⟩
    | some code =>
        rcases some code rfl with ⟨_, forms, rfl, each⟩
        have inPlace := CodeAttribute.inPlace_encode hasBody.decoded each
        exact .inr ⟨_, isOutcome, inPlace.fits_encode (CodeAttribute.gives_read _ _ _ reads),
          inPlace⟩
  · exact absurd isConstructor isOther

/-- The same when the methods before it are converted too. The name of code is
in the pool, so it finds what it found at first. -/
theorem MethodsConverted.keepsLayout
    (converts : MethodsConverted answers options classFile classFile.methods outcomes pool)
    (atIndex : classFile.methods[index]? = some method)
    (isConstructor : classFile.pool.text? method.name = some constructorName)
    (isFirst : method.attributes.findIdx? (·.isNamed classFile.pool Attribute.codeName) =
      some position) :
    ∃ outcome, outcomes[index]? = some outcome ∧
      KeepsLayout answers options classFile.pool pool method position outcome := by
  rcases Outcome.getElem?_of_forall₂ converts.each atIndex with
    ⟨outcome, atOutcome, before, after, earlier, later, succeeded⟩
  rcases List.findIdx?_eq_some_iff_getElem.1 isFirst with ⟨inRange, isNamed, _⟩
  have alike := ConstantPool.SpellAlike.of_interns earlier (beq_iff_eq.1 isNamed)
  rw [← alike.isNamed_eq] at isFirst
  have keeps := keepsLayout_of_convertMethod succeeded (earlier.grows.text? isConstructor) isFirst
  exact ⟨outcome, atOutcome, keeps.mono earlier.grows later.grows⟩

end ClassFile

/-! ## Descriptors -/

/-- Code that is read from the one attribute is read from the other, but for its
tables of local variables. -/
def Attribute.Retables (pool : ConstantPool) (item item' : Attribute) : Prop :=
  ∀ code rest, CodeAttribute.read item.info = .ok (code, rest) →
    ∃ code' rest', CodeAttribute.read item'.info = .ok (code', rest') ∧
      code' = { code with attributes := code'.attributes } ∧
      List.Forall₂ (KeptInCode pool) code.attributes code'.attributes

theorem Attribute.retables_refl (pool : ConstantPool) (item : Attribute) :
    item.Retables pool item :=
  fun code rest reads => ⟨code, rest, reads, rfl, keptInCode_self pool code.attributes⟩

theorem Attribute.RemapsCode.retables {old new : ConstantPool} {item item' : Attribute}
    (remaps : item.RemapsCode answers old new item') (few : new.entries.size ≤ 65535) :
    item.Retables new item' := by
  intro code rest reads
  rcases remaps with ⟨code₁, rest₁, code', rest', reads₁, reads', isCode, tables⟩
  cases reads.symm.trans reads₁
  refine ⟨code', rest', reads', isCode, tables.imp ?_⟩
  rintro table table' ⟨name, _, other⟩
  refine ⟨name, fun isOther => other fun isFirst => ?_⟩
  exact isOther (ConstantPool.text?_of_textIndex? few isFirst)

namespace ClassFile

variable {classFile : ClassFile} {described : Option ClassFile}

/-- Flattening descriptors gives no text a second entry. -/
theorem describe?_spellAlike
    (describes : (classFile.describe? options).eval answers = .ok described)
    {index : UInt16} {text : String} (found : classFile.pool.text? index = some text) :
    ConstantPool.SpellAlike text classFile.pool (described.getD classFile).pool := by
  unfold describe? at describes
  split at describes
  · rcases flattenDescriptors?_interns describes with ⟨_, _, _, replaces, interns⟩
    have alike := ConstantPool.SpellAlike.of_interns interns found
    exact fun other => replaces.text? other ▸ alike other
  · cases Inquiry.eval_pure_eq_ok_iff.1 describes
    exact fun _ => Iff.rfl

/-- Flattening descriptors changes code only in its tables of local variables. -/
theorem describe?_retables
    (describes : (classFile.describe? options).eval answers = .ok described)
    (few : (described.getD classFile).pool.entries.size ≤ 65535) {index : UInt16}
    (found : classFile.pool.text? index = some Attribute.codeName) :
    List.Forall₂ (fun method method' => method'.name = method.name ∧
      List.Forall₂ (fun item item' => item'.name = item.name ∧
        item.Retables (described.getD classFile).pool item')
        method.attributes method'.attributes)
      classFile.methods (described.getD classFile).methods := by
  unfold describe? at describes
  split at describes
  · rcases ConstantPool.exists_textIndex?_of_text? found with ⟨known, isKnown⟩
    rcases flattenDescriptors?_replaces describes with ⟨_, _, _, replaces⟩
    have isKnown' : (described.getD classFile).pool.textIndex? Attribute.codeName = some known :=
      (replaces.textIndex? _).trans (replaces.grows.textIndex? isKnown)
    refine (flattenDescriptors?_remapped describes few).methods.imp fun method method' remaps => ?_
    refine ⟨by rw [remaps.rest], remaps.attributes.imp ?_⟩
    rintro item item' ⟨name, first, other⟩
    refine ⟨name, ?_⟩
    by_cases isFirst : known = item.name
    · exact (first (isFirst ▸ isKnown)).retables few
    · rw [other fun isName => isFirst (Option.some.inj (isKnown'.symm.trans isName))]
      exact item.retables_refl _
  · cases Inquiry.eval_pure_eq_ok_iff.1 describes
    exact List.forall₂_same.2 fun _ _ =>
      ⟨rfl, List.forall₂_same.2 fun item _ => ⟨rfl, item.retables_refl _⟩⟩

/-! ## Classes -/

/-- The code of a constructor in one class is in place in another. -/
def ConstructorInPlace (answers : String → Except OracleError Bool) (options : ConvertOptions)
    (classFile result : ClassFile) (index : Nat) (method : Member) (position : Nat) : Prop :=
  ∃ method' item item' code rest code' rest', result.methods[index]? = some method' ∧
    result.pool.text? method'.name = some constructorName ∧
    method'.attributes.findIdx? (·.isNamed result.pool Attribute.codeName) = some position ∧
    method.attributes[position]? = some item ∧ method'.attributes[position]? = some item' ∧
    CodeAttribute.read item.info = .ok (code, rest) ∧
    CodeAttribute.read item'.info = .ok (code', rest') ∧
    code.InPlace answers options classFile.pool result.pool code'

section Written

variable {outcomes : List (Option Member)} {pool : ConstantPool} {method : Member}
  {index position : Nat}
  (converts : MethodsConverted answers options classFile classFile.methods outcomes pool)
  (atIndex : classFile.methods[index]? = some method)
  (isConstructor : classFile.pool.text? method.name = some constructorName)
  (isFirst : method.attributes.findIdx? (·.isNamed classFile.pool Attribute.codeName) =
    some position)
include converts atIndex isConstructor isFirst

/-- A class in which no method changes has its constructors in place. -/
theorem constructorInPlace_self (unchanged : outcomes.any Option.isSome = false) :
    ConstructorInPlace answers options classFile classFile index method position := by
  rcases converts.keepsLayout atIndex isConstructor isFirst with
    ⟨outcome, atOutcome, item, code, rest, atPosition, reads, ⟨_, inPlace⟩ | ⟨_, rfl, _⟩⟩
  · exact ⟨method, item, item, code, rest, code, rest, atIndex, isConstructor, isFirst, atPosition,
      atPosition, reads, reads, inPlace _⟩
  · cases List.any_eq_false.1 unchanged _ (List.mem_of_getElem? atOutcome) rfl

/-- The constructors of a class whose methods are converted are in place. -/
theorem constructorInPlace_withMethods :
    ConstructorInPlace answers options classFile (classFile.withMethods outcomes pool) index
      method position := by
  rcases converts.keepsLayout atIndex isConstructor isFirst with
    ⟨outcome, atOutcome, item, code, rest, atPosition, reads, given⟩
  rcases List.findIdx?_eq_some_iff_getElem.1 isFirst with ⟨_, isNamed, _⟩
  have alike := ConstantPool.SpellAlike.of_interns converts.interns (beq_iff_eq.1 isNamed)
  have atMethod : (classFile.withMethods outcomes pool).methods[index]? =
      some (outcome.getD method) := by
    rw [withMethods, List.getElem?_zipWith, atOutcome, atIndex]
  have isFirst' : method.attributes.findIdx? (·.isNamed pool Attribute.codeName) =
      some position := by
    rw [alike.isNamed_eq]
    exact isFirst
  rcases given with ⟨rfl, inPlace⟩ | ⟨code', rfl, fits, inPlace⟩
  · exact ⟨method, item, item, code, rest, code, rest, atMethod,
      converts.grows.text? isConstructor, isFirst', atPosition, atPosition, reads, reads,
      inPlace _⟩
  · refine ⟨method.withCode position code', item, { item with info := code'.toBytes }, code, rest,
      code', [], atMethod, converts.grows.text? isConstructor, ?_, atPosition, ?_, reads,
      CodeAttribute.read_toBytes fits, inPlace⟩
    · have names : List.Forall₂ (fun item item' => item'.name = item.name) method.attributes
          (method.withCode position code').attributes := by
        apply Outcome.forall₂_modify ?_ atPosition
        · rfl
        · exact fun _ => rfl
      exact (Attribute.findIdx?_isNamed names).trans isFirst'
    · simp [Member.withCode, atPosition]

/-- The constructors of the class that a conversion writes are in place. -/
theorem constructorInPlace_written {described : Option ClassFile}
    (describes : ((classFile.withMethods outcomes pool).describe? options).eval answers =
      .ok described)
    (few : (described.getD (classFile.withMethods outcomes pool)).pool.entries.size ≤ 65535) :
    ConstructorInPlace answers options classFile
      (described.getD (classFile.withMethods outcomes pool)).syncCounts index method position := by
  rcases constructorInPlace_withMethods converts atIndex isConstructor isFirst with
    ⟨_, item, between, code, rest, _, _, atBetween, isConstructor', isFirst', atPosition,
      atPosition', reads, reads', inPlace⟩
  rcases List.findIdx?_eq_some_iff_getElem.1 isFirst' with ⟨_, isNamed, _⟩
  have isCode := beq_iff_eq.1 isNamed
  rcases describe?_spec describes with ⟨_, _, sizeLe, renames⟩
  have texts (other : UInt16) (text : String)
      (found : (classFile.withMethods outcomes pool).pool.text? other = some text) :=
    (describe?_spellAlike describes found other).2 found
  rcases Outcome.getElem?_of_forall₂ (describe?_retables describes few isCode) atBetween with
    ⟨method', atMethod, name, each⟩
  rcases Outcome.getElem?_of_forall₂ each atPosition' with ⟨item', atItem, _, retables⟩
  rcases retables _ _ reads' with ⟨code', rest', reads'', isCode', tables⟩
  have written := inPlace.redescribed (Nat.le_trans sizeLe few) (renames few) texts isCode' tables
  refine ⟨method', item, item', code, rest, code', rest', atMethod, ?_, ?_, atPosition, atItem,
    reads, reads'', written.mono (.refl _) (ConstantPool.grows_syncSize _)⟩
  · rw [name]
    exact texts _ _ isConstructor'
  · refine (Attribute.findIdx?_isNamed (each.imp fun _ _ here => here.1)).trans ?_
    rw [← isFirst', ← (describe?_spellAlike describes isCode).isNamed_eq]
    rfl

end Written

/-- A conversion gives back its input, or it writes a class. The constructors of
that class are in place: each instruction of the first code stays at its address
and the same, but that an array of a value-capable class becomes one of values, and
everything else of the code stays, but for tables of local variables. If the class
fits the format, it is what is read back. -/
theorem convert_constructors_inPlace (find : ClassFinder) (oracle : Oracle) (bytes : Bytes)
    (options : ConvertOptions) {out : Bytes}
    (converted : ((convert bytes options).run find oracle).result = .ok out) :
    ∃ classFile outcomes pool described written result,
      parse bytes = .ok classFile ∧
      MethodsConverted (oracle.answer find) options classFile classFile.methods outcomes pool ∧
      ((classFile.withMethods outcomes pool).describe? options).eval (oracle.answer find) =
        .ok described ∧
      written = described.getD (classFile.withMethods outcomes pool) ∧
      (out = bytes ∧ result = classFile ∨
        out = result.toBytes ∧ result = written.syncCounts) ∧
      (written.pool.entries.size ≤ 65534 →
        ∀ (index : Nat) (method : Member) (position : Nat),
          classFile.methods[index]? = some method →
          classFile.pool.text? method.name = some constructorName →
          method.attributes.findIdx? (·.isNamed classFile.pool Attribute.codeName) =
            some position →
          ConstructorInPlace (oracle.answer find) options classFile result index method
            position) ∧
      (OutputFits outcomes written → parse out = .ok result) := by
  rw [Inquiry.run_result] at converted
  rcases convert_cases converted with
    ⟨classFile, outcomes, pool, described, parsed, converts, describes, isOut⟩
  split at isOut
  · rcases fits_of_parse parsed with ⟨slotted, parts⟩
    refine ⟨classFile, outcomes, pool, described, _, _, parsed, converts, describes, rfl,
      .inr ⟨isOut, rfl⟩, ?_, ?_⟩
    · intro slots index method position atIndex isConstructor isFirst
      exact constructorInPlace_written converts atIndex isConstructor isFirst describes
        (Nat.le_succ_of_le slots)
    · intro fits
      rw [isOut]
      exact parse_written converts describes fits slotted parts
  · next unchanged =>
      rw [Bool.not_eq_true, Bool.or_eq_false_iff] at unchanged
      refine ⟨classFile, outcomes, pool, described, _, classFile, parsed, converts, describes, rfl,
        .inl ⟨isOut, rfl⟩, ?_, ?_⟩
      · intro _ index method position atIndex isConstructor isFirst
        exact constructorInPlace_self converts atIndex isConstructor isFirst unchanged.1
      · intro _
        rw [isOut]
        exact parsed

/-- A constructor that keeps an array of the value-capable `V`, with a handler and
source lines. -/
def arrayKeeper : Member :=
  ⟨0, 5, 6, [⟨7, CodeAttribute.toBytes ⟨1, 2, [0x04, 0xbd, 0, 4, 0x4c, 0xb1], [⟨0, 4, 5, 0⟩],
    [⟨8, LineNumber.tableBytes [⟨4, 1⟩, ⟨5, 2⟩]⟩]⟩⟩]⟩

/-- A class with the constructor `arrayKeeper`. -/
def keeper : ClassFile where
  minorVersion := 0
  majorVersion := 52
  pool := {
    size := 9
    entries := #[.utf8 (Bytes.ofText "C"), .classRef 1, .utf8 (Bytes.ofText "V"), .classRef 3,
      .utf8 (Bytes.ofText constructorName), .utf8 (Bytes.ofText "()V"),
      .utf8 (Bytes.ofText Attribute.codeName),
      .utf8 (Bytes.ofText Attribute.lineNumberTableName)] }
  access := 0
  thisClass := 2
  superClass := 0
  interfaces := []
  fields := []
  methods := [arrayKeeper]
  attributes := []

/-- The array becomes one of values where it is. -/
theorem convert_constructors_inPlace_keeper : ∃ out result,
    ((convert keeper.toBytes {}).run (fun _ => .absent) (.knowing "V")).result = .ok out ∧
      parse out = .ok result ∧ out ≠ keeper.toBytes ∧
      ConstructorInPlace (Oracle.answer (fun _ => .absent) (.knowing "V")) {} keeper result 0
        arrayKeeper 0 := by
  have succeeds : ((convert keeper.toBytes {}).eval (fun other => .ok ("V" == other))).toOption.any
      (fun out => out ≠ keeper.toBytes) = true := by
    decide +kernel
  have parses : parse keeper.toBytes = .ok keeper := by
    decide +kernel
  rcases Outcome.exists_of_any _ succeeds with ⟨out, evaluated, isNew⟩
  have converted : ((convert keeper.toBytes {}).run (fun _ => .absent)
      (.knowing "V")).result = .ok out := by
    rw [Inquiry.run_result, Oracle.answer_knowing, evaluated]
  rcases convert_constructors_inPlace _ _ _ _ converted with
    ⟨_, outcomes, pool, described, _, result, parsed, converts, describes, rfl, _, inPlace,
      readsBack⟩
  cases parses.symm.trans parsed
  have evaluates : ((keeper.convertMethod arrayKeeper {}).eval
      (fun other => .ok ("V" == other))).toOption.any (fun outcome => outcome.1.isSome &&
        (((keeper.withMethods [outcome.1] outcome.2).describe? {}).eval
          (fun other => .ok ("V" == other))).toOption.any fun described =>
            decide (OutputFits [outcome.1]
              (described.getD (keeper.withMethods [outcome.1] outcome.2)))) = true := by
    decide +kernel
  rcases outputFits_of_evaluates rfl evaluates (Oracle.answer_knowing "V" ▸ converts)
    (Oracle.answer_knowing "V" ▸ describes) with ⟨_, _, fits⟩
  exact ⟨out, result, converted, readsBack fits, of_decide_eq_true isNew,
    inPlace fits.slots 0 arrayKeeper 0 rfl (by decide +kernel) (by decide +kernel)⟩

end ClassFile

end ValueForm
