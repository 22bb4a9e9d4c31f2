import ValueForm.Proofs.Conversion.Class
import ValueForm.Proofs.Conversion.Replacement
import ValueForm.Proofs.Flattening.Erasure

/-!
# Converted classes

A conversion puts constants into code, each for a class or a field that it is
requested for, and then writes the class. As long as the class that is written
fits the format, it is read back, and every constant that was put into code is
the one requested. Nothing checks that it fits: pools that overflow and texts
that are too long are written all the same.
-/

namespace ValueForm

variable {answers : String → Except OracleError Bool} {options : ConvertOptions}
  {capable : String → Bool}

/-! ## Requests -/

/-- What a constant of converted code is requested for. -/
inductive Request where
  /-- The class of an instance that becomes a reference. -/
  | box (className : String)
  /-- The value class of an instance that becomes a value. -/
  | unbox (className : String)
  /-- The value class of the elements of an array. -/
  | array (element : String)
  /-- A field, to be read through the value class of its owner. -/
  | field (field : MemberRef)

/-- The constant of an instruction of a kind that constants are requested for. -/
def Instruction.constant? : Instruction → Option UInt16
  | .box index | .unbox index | .newReferenceArray index | .getField index => some index
  | _ => none

namespace ConvertOptions

/-- What a conversion makes of a descriptor. -/
def descriptor (options : ConvertOptions) (capable : String → Bool) (descriptor : String) :
    String :=
  if options.flatArrays then flatDescriptor capable descriptor else descriptor

/-- What a conversion makes of the name of a class constant. -/
def className (options : ConvertOptions) (capable : String → Bool) (name : String) : String :=
  if options.flatArrays then flatClassName capable name else name

@[simp]
theorem className_valueClassName (options : ConvertOptions) (capable : String → Bool)
    (className : String) :
    options.className capable (valueClassName className) = valueClassName className := by
  unfold ConvertOptions.className
  split
  · exact flatClassName_valueClassName capable className
  · rfl

/-- An index that names something in one pool names what a conversion makes of
that in another. -/
structure Renames (options : ConvertOptions) (capable : String → Bool)
    (pool last : ConstantPool) : Prop where
  className : ∀ index name, pool.className? index = some name →
    last.className? index = some (options.className capable name)
  member : ∀ index member, pool.member? index = some member →
    last.member? index = some ⟨options.className capable member.owner, member.name,
      options.descriptor capable member.descriptor⟩

end ConvertOptions

/-- An instruction whose constant is the one requested. -/
inductive Request.MetBy (options : ConvertOptions) (capable : String → Bool)
    (pool : ConstantPool) : Request → Instruction → Prop
  | box {className : String} {index : UInt16}
      (named : pool.className? index = some (options.className capable className)) :
      MetBy options capable pool (.box className) (.box index)
  | unbox {className : String} {index : UInt16}
      (named : pool.className? index = some (valueClassName className)) :
      MetBy options capable pool (.unbox className) (.unbox index)
  | array {element : String} {index : UInt16}
      (named : pool.className? index = some (valueClassName element)) :
      MetBy options capable pool (.array element) (.newReferenceArray index)
  | field {field : MemberRef} {index : UInt16}
      (named : pool.member? index = some ⟨valueClassName field.owner, field.name,
        options.descriptor capable field.descriptor⟩) :
      MetBy options capable pool (.field field) (.getField index)

/-- An instruction that a request was made for and that meets it, or one that was
there before or has no constant. -/
inductive Request.Answered (met : Request → Instruction → Prop) (old : Instruction) :
    Option Request → Instruction → Prop
  | kept : Answered met old none old
  | plain {new : Instruction} (isPlain : new.constant? = none) : Answered met old none new
  | requested {request : Request} {new : Instruction} (isMet : met request new) :
      Answered met old (some request) new

/-- The constant that a conversion between forms is made with. -/
def Conversion.request : Conversion → Request
  | ⟨.box, className⟩ => .box className
  | ⟨.unbox, className⟩ => .unbox className

/-- The constant that a counterpart needs, if it needs one. -/
def Counterpart.request? (pool : ConstantPool) : Counterpart → Option Request
  | .readValue index => (pool.member? index).map .field
  | .createArray element => some (.array element)
  | _ => none

/-- The constants that are requested for what stands for an instruction, part by
part. -/
def Plan.requests (pool : ConstantPool) (plan : Plan) : List (Option Request) :=
  plan.before.toList.map (some ·.request) ++
    plan.main.request? pool :: plan.after.toList.map (some ·.request)

section Emission

variable {early pool last : ConstantPool}

/-- What a constant named early in a conversion is named in the end. -/
theorem ConstantPool.NamesClass.renamed {index : UInt16} {name : String}
    (named : early.NamesClass index name) (grows : early.Grows pool)
    (few : pool.entries.size ≤ 65535) (renames : options.Renames capable pool last) :
    last.className? index = some (options.className capable name) :=
  renames.className _ _ (grows.className? (named (Nat.le_trans grows.size_le few)))

theorem ConstantPool.NamesClass.valueClass {index : UInt16} {className : String}
    (named : early.NamesClass index (valueClassName className)) (grows : early.Grows pool)
    (few : pool.entries.size ≤ 65535) (renames : options.Renames capable pool last) :
    last.className? index = some (valueClassName className) := by
  rw [named.renamed grows few renames, ConvertOptions.className_valueClassName]

theorem Conversion.Emitted.metBy {conversion : Conversion} {instruction : Instruction}
    (emitted : conversion.Emitted early instruction) (grows : early.Grows pool)
    (few : pool.entries.size ≤ 65535) (renames : options.Renames capable pool last) :
    conversion.request.MetBy options capable last instruction := by
  cases emitted with
  | box named => exact .box (named.renamed grows few renames)
  | unbox named => exact .unbox (named.valueClass grows few renames)

theorem Counterpart.Emitted.answered {counterpart : Counterpart} {located : Located}
    {main : Instruction} (emitted : counterpart.Emitted early located (.fixed main))
    (isPlain : located.instruction.isBranch = false) (grows : early.Grows pool)
    (few : pool.entries.size ≤ 65535) (renames : options.Renames capable pool last) :
    Request.Answered (Request.MetBy options capable last) located.instruction
      (counterpart.request? pool) main := by
  generalize isPiece : Piece.fixed main = piece at emitted
  cases emitted with
  | kept =>
      rw [Piece.keep, if_neg (Bool.eq_false_iff.1 isPlain)] at isPiece
      cases isPiece
      exact .kept
  | loadValue | storeValue | loadElement | storeElement =>
      cases isPiece
      exact .plain rfl
  | readValue member named =>
      cases isPiece
      have renamed := renames.member _ _
        (grows.member? (named (Nat.le_trans grows.size_le few)))
      rw [ConvertOptions.className_valueClassName] at renamed
      rw [Counterpart.request?, grows.member? member]
      exact .requested (.field renamed)
  | createArray named =>
      cases isPiece
      exact .requested (.array (named.valueClass grows few renames))

/-- What a plan is emitted as meets its requests. -/
theorem Plan.Emitted.answered {plan : Plan} {located : Located}
    {before after : List Instruction} {main : Instruction}
    (emitted : plan.Emitted early located before (.fixed main) after)
    (isPlain : located.instruction.isBranch = false) (grows : early.Grows pool)
    (few : pool.entries.size ≤ 65535) (renames : options.Renames capable pool last) :
    List.Forall₂ (Request.Answered (Request.MetBy options capable last) located.instruction)
      (plan.requests pool) (before ++ main :: after) := by
  have converts {conversions : List Conversion} {instructions : List Instruction}
      (each : List.Forall₂ (Conversion.Emitted early) conversions instructions) :
      List.Forall₂ (Request.Answered (Request.MetBy options capable last) located.instruction)
        (conversions.map (some ·.request)) instructions :=
    List.forall₂_map_left_iff.2
      (each.imp fun _ _ here => .requested (here.metBy grows few renames))
  exact List.rel_append (converts emitted.before)
    (.cons (emitted.main.answered isPlain grows few renames) (converts emitted.after))

end Emission

/-! ## Code -/

theorem Instruction.Redirected.constant?_eq_none {start stop : Nat} {instruction : Instruction}
    {targets : List Nat} {form : List Instruction}
    (redirected : instruction.Redirected start stop targets form) :
    ∀ part ∈ form, part.constant? = none := by
  intro part isPart
  cases redirected with
  | moved same =>
      cases List.mem_singleton.1 isPart
      cases same <;> rfl
  | goto | jsr =>
      cases List.mem_singleton.1 isPart
      rfl
  | branch =>
      rcases List.mem_pair.1 isPart with rfl | rfl
      · rfl
      · rfl

namespace CodeAttribute

/-- New code has the same room for its frames, but that room for one value may be
made on a stack that had none. -/
structure KeepsRoom (old new : CodeAttribute) : Prop where
  maxLocals : new.maxLocals = old.maxLocals
  maxStack : new.maxStack = old.maxStack ∨ old.maxStack = 0 ∧ new.maxStack = 1

/-- New code needs no more than the old: the same room, and no more handlers and
tables. -/
structure KeepsLimits (old new : CodeAttribute) : Prop extends KeepsRoom old new where
  exceptions : new.exceptions.length ≤ old.exceptions.length
  attributes : new.attributes.length ≤ old.attributes.length

theorem max_eq_or {depth needed : UInt16} (small : needed ≤ 1) :
    max depth needed = depth ∨ depth = 0 ∧ max depth needed = 1 := by
  change (if depth ≤ needed then needed else depth) = depth ∨
    depth = 0 ∧ (if depth ≤ needed then needed else depth) = 1
  split
  · simp only [UInt16.le_iff_toNat_le, ← UInt16.toNat_inj, UInt16.toNat_zero,
      UInt16.toNat_one] at *
    omega
  · exact .inl rfl

/-- Code that keeps the limits of code that fits does so too, if it can be the
body of an attribute. -/
theorem KeepsLimits.fits {old new : CodeAttribute} (limits : old.KeepsLimits new)
    (fits : old.Fits) (short : new.toBytes.length < 2 ^ 32) : new.Fits := by
  simp only [toBytes, Bytes.counted16, List.length_append] at short
  refine ⟨by omega, Nat.le_trans limits.exceptions fits.exceptions,
    Nat.le_trans limits.attributes fits.attributes.count, ?_⟩
  intro item found
  have written : item.toBytes.length ≤ (new.attributes.flatMap Attribute.toBytes).length := by
    rw [List.flatMap_def]
    exact (List.sublist_flatten_of_mem (List.mem_map_of_mem found)).length_le
  rw [Attribute.length_toBytes] at written
  rw [Attribute.Fits]
  omega

end CodeAttribute

namespace MethodBody

/-- Flattened code whose constants are those requested: by the conversions at
entry, in the order of their slots, and by what stands for each instruction. -/
structure Refers (body : MethodBody) (registry : Registry) (pool : ConstantPool)
    (met : Request → Instruction → Prop) (prologue : List Instruction)
    (segments : List (List Instruction)) : Prop where
  opens : ∃ conversions, prologue = conversions.flatten ∧
    List.Forall₂ (fun entry conversion => ∃ unbox,
      conversion = [.loadReference entry.1, unbox, .storeValue entry.1] ∧
        met (.unbox entry.2) unbox) registry.unboxedSlots conversions
  count : segments.length = body.instructions.size
  segment : ∀ (index : Nat) (located : Located) (segment : List Instruction),
    body.instructions[index]? = some located → segments[index]? = some segment →
    (located.instruction.isBranch = true ∧ ∀ part ∈ segment, part.constant? = none) ∨
      List.Forall₂ (Request.Answered met located.instruction)
        ((registry.plan index located.instruction).requests pool) segment

/-- The code of a body after its conversion: that of a constructor, in which
arrays are replaced, or flattened code. -/
inductive Rewritten (answers : String → Except OracleError Bool) (options : ConvertOptions)
    (classFile : ClassFile) (body : MethodBody) (pool : ConstantPool)
    (met : Request → Instruction → Prop) (code : Bytes) : Prop
  | arrays {forms : List Instruction} (decodes : Code.decode code = .ok (Code.locate 0 forms))
      (each : List.Forall₂ (fun located form => form = located.instruction ∨
        ∃ index element, located.instruction = .newReferenceArray index ∧
          pool.elementClass? index = some element ∧ answers element = .ok true ∧
          met (.array element) form) body.instructions.toList forms) :
      Rewritten answers options classFile body pool met code
  | flat {analysis : AnalysisResult} {prologue : List Instruction}
      {segments : List (List Instruction)}
      (analyzed : (body.analyze classFile options.flatArrays).eval answers = .ok analysis)
      (decodes : Code.decode code = .ok (Code.locate 0 (prologue ++ segments.flatten)))
      (refers : body.Refers analysis.registry pool met prologue segments) :
      Rewritten answers options classFile body pool met code

variable {classFile : ClassFile} {body : MethodBody} {pool last : ConstantPool}

/-- Flattening meets its requests. -/
theorem rewritten_of_flatten {analysis : AnalysisResult}
    (analyzed : (body.analyze classFile options.flatArrays).eval answers = .ok analysis)
    (decoded : Code.decode body.code.code = .ok body.instructions.toList) {thisClass : UInt16}
    {bench after : Workbench} {code : CodeAttribute}
    (flattened : body.flatten thisClass analysis bench = .ok code after)
    (grows : after.pool.Grows pool) (few : pool.entries.size ≤ 65535)
    (renames : options.Renames capable pool last) :
    body.Rewritten answers options classFile pool (Request.MetBy options capable last)
      code.code := by
  rcases flatten_spec analyzed flattened with
    ⟨emission, relocation, forms, _, _, _, _, isCode, assembled, _, conversions, isPrologue, each⟩
  have plain := Emission.ConvertsSlot.flatten_plain each
  have wellFormed := assembled.wellFormed (wellFormed_of_decode decoded) fun part isPart =>
    (plain part (isPrologue ▸ isPart)).2
  refine .flat analyzed (isCode ▸ Code.decode_encode wellFormed) ⟨?_, assembled.length, ?_⟩
  · refine ⟨conversions, isPrologue, ?_⟩
    rw [Registry.unboxedSlots, List.forall₂_map_left_iff]
    refine each.imp fun entry conversion converts => ?_
    rcases converts with ⟨index, isConversion, named⟩
    exact ⟨.unbox index, isConversion, .unbox (named.valueClass grows few renames)⟩
  · intro index located segment atIndex atSegment
    rcases assembled.segment index located atIndex with ⟨form, _, _, atForm, _, _, isForm⟩
    cases atSegment.symm.trans atForm
    cases isForm with
    | branch isBranch _ redirected => exact .inl ⟨isBranch, redirected.constant?_eq_none⟩
    | plain isPlain emitted => exact .inr (emitted.answered isPlain grows few renames)

/-- Replacing arrays meets the requests for them. -/
theorem rewritten_of_arrayForms {early : ConstantPool} {forms : List Instruction}
    (decoded : Code.decode body.code.code = .ok body.instructions.toList)
    (each : List.Forall₂ (fun located => ArrayForm answers early located.instruction)
      body.instructions.toList forms)
    (grows : early.Grows pool) (few : pool.entries.size ≤ 65535)
    (renames : options.Renames capable pool last) :
    body.Rewritten answers options classFile pool (Request.MetBy options capable last)
      (Code.encode forms) := by
  have wellFormed : ∀ form ∈ forms, form.WellFormed := by
    intro form found
    rcases Outcome.exists_of_mem_forall₂ each found with ⟨located, isLocated, here⟩
    have isWellFormed := Code.wellFormed_of_decode decoded located isLocated
    generalize located.instruction = instruction at here isWellFormed
    cases here with
    | kept => exact isWellFormed
    | flat => trivial
  refine .arrays (Code.decode_encode wellFormed) (each.imp fun located form here => ?_)
  generalize located.instruction = instruction at here ⊢
  cases here with
  | kept => exact .inl rfl
  | @flat index moved element isElement isCapable named =>
      exact .inr ⟨index, element, rfl, grows.elementClass? isElement, isCapable,
        .array (named.valueClass grows few renames)⟩

/-- Flattened code keeps the limits of the code before. -/
theorem flatten_keepsLimits {analysis : AnalysisResult} {thisClass : UInt16}
    {bench after : Workbench} {code : CodeAttribute}
    (flattened : body.flatten thisClass analysis bench = .ok code after) :
    body.code.KeepsLimits code := by
  rcases flatten_cases flattened with
    ⟨emission, _, _, carried, _, _, _, _, _, moved, carries, isCode⟩
  have each : List.Forall₂ (fun _ _ => True) body.code.attributes carried :=
    Flatten.mapM_spec (FlattenedCode.interning_carryAttribute _) (fun _ _ _ _ _ _ => trivial)
      carries (.refl _)
  rw [isCode]
  refine ⟨⟨rfl, ?_⟩, (Outcome.forall₂_of_mapM moved).length_eq.ge, ?_⟩
  · refine CodeAttribute.max_eq_or ?_
    split <;> decide
  · rw [each.length_eq]
    exact List.length_filterMap_le _ _

end MethodBody

/-! ## Methods -/

namespace ClassFile

/-- Converting a method only interns constants. -/
theorem interns_of_convertMethod {classFile : ClassFile} {method : Member}
    {converted : Option Member} {last : ConstantPool}
    (succeeded : (classFile.convertMethod method options).eval answers = .ok (converted, last)) :
    classFile.pool.Interns last := by
  rcases convertMethod_cases succeeded with
    ⟨_, rfl⟩ | ⟨_, body, code?, name, _, converts | converts, _⟩
  · exact .refl
  · exact (MethodBody.convertConstructor_spec converts).1
  · rcases MethodBody.convert_cases converts with
      ⟨analysis, analyzed, ⟨_, rfl⟩ | ⟨_, code, bench, flattened, _, rfl⟩⟩
    · exact .refl
    · exact MethodBody.interns_of_flatten flattened

/-- Converting a method only adds constants. -/
theorem grows_of_convertMethod {classFile : ClassFile} {method : Member}
    {converted : Option Member} {last : ConstantPool}
    (succeeded : (classFile.convertMethod method options).eval answers = .ok (converted, last)) :
    classFile.pool.Grows last :=
  (interns_of_convertMethod succeeded).grows

theorem MethodsConverted.interns {classFile : ClassFile} {methods : List Member}
    {outcomes : List (Option Member)} {last : ConstantPool}
    (converts : MethodsConverted answers options classFile methods outcomes last) :
    classFile.pool.Interns last := by
  induction converts with
  | nil classFile => exact .refl
  | cons here _ ih => exact (interns_of_convertMethod here).trans ih

theorem MethodsConverted.grows {classFile : ClassFile} {methods : List Member}
    {outcomes : List (Option Member)} {last : ConstantPool}
    (converts : MethodsConverted answers options classFile methods outcomes last) :
    classFile.pool.Grows last :=
  converts.interns.grows

/-- Each method is converted with a pool on the way from the first to the last. -/
theorem MethodsConverted.each {classFile : ClassFile} {methods : List Member}
    {outcomes : List (Option Member)} {last : ConstantPool}
    (converts : MethodsConverted answers options classFile methods outcomes last) :
    List.Forall₂ (fun method outcome => ∃ before after, classFile.pool.Interns before ∧
      after.Interns last ∧
      (convertMethod { classFile with pool := before } method options).eval answers =
        .ok (outcome, after)) methods outcomes := by
  induction converts with
  | nil classFile => exact .nil
  | @cons classFile method methods converted others pool last here rest ih =>
      refine .cons ⟨classFile.pool, pool, .refl, rest.interns, here⟩ (ih.imp ?_)
      rintro other outcome ⟨before, after, interns, interns', there⟩
      exact ⟨before, after, (interns_of_convertMethod here).trans interns, interns', there⟩

/-- A method that was converted was converted with a pool on the way from the
first to the last. -/
theorem MethodsConverted.exists_of_getElem? {classFile : ClassFile} {methods : List Member}
    {outcomes : List (Option Member)} {last : ConstantPool}
    (converts : MethodsConverted answers options classFile methods outcomes last) {index : Nat}
    {outcome : Option Member} (found : outcomes[index]? = some outcome) :
    ∃ method before after, methods[index]? = some method ∧ classFile.pool.Grows before ∧
      after.Grows last ∧
      (convertMethod { classFile with pool := before } method options).eval answers =
        .ok (outcome, after) := by
  rcases Outcome.getElem?_of_forall₂ converts.each.flip found with
    ⟨method, atIndex, before, after, interns, interns', here⟩
  exact ⟨method, before, after, atIndex, interns.grows, interns'.grows, here⟩

/-- What a method that changes is given: the code of a constructor, in which
arrays are replaced, or flattened code. -/
theorem exists_withCode {classFile : ClassFile} {method converted : Member} {last : ConstantPool}
    (succeeded : (classFile.convertMethod method options).eval answers =
      .ok (some converted, last)) :
    ∃ position body code, classFile.HasBody method position body ∧
      converted = method.withCode position code ∧ body.code.KeepsLimits code ∧
      ((∃ forms, code = { body.code with code := Code.encode forms } ∧
          List.Forall₂ (fun located => ArrayForm answers last located.instruction)
            body.instructions.toList forms) ∨
        ∃ analysis bench, (body.analyze classFile options.flatArrays).eval answers = .ok analysis ∧
          body.flatten classFile.thisClass analysis { pool := classFile.pool } = .ok code bench ∧
          last = bench.pool) := by
  rcases convertMethod_cases succeeded with
    ⟨unchanged, _⟩ | ⟨position, body, code?, name, hasBody, converts, isConverted⟩
  · cases unchanged
  · rcases Option.map_eq_some_iff.1 isConverted.symm with ⟨code, rfl, rfl⟩
    refine ⟨position, body, code, hasBody, rfl, ?_⟩
    rcases converts with converts | converts
    · rcases (MethodBody.convertConstructor_spec converts).2 code rfl with ⟨_, forms, rfl, each⟩
      exact ⟨⟨⟨rfl, .inl rfl⟩, Nat.le_refl _, Nat.le_refl _⟩, .inl ⟨forms, rfl, each⟩⟩
    · rcases MethodBody.convert_cases converts with
        ⟨analysis, analyzed, ⟨unchanged, _⟩ | ⟨_, _, bench, flattened, ⟨⟩, isLast⟩⟩
      · cases unchanged
      · exact ⟨MethodBody.flatten_keepsLimits flattened,
          .inr ⟨analysis, bench, analyzed, flattened, isLast⟩⟩

/-- The code of a method that changes meets its requests. -/
theorem exists_rewritten {classFile : ClassFile} {method converted : Member}
    {early pool last : ConstantPool}
    (succeeded : (classFile.convertMethod method options).eval answers =
      .ok (some converted, early))
    (grows : early.Grows pool) (few : pool.entries.size ≤ 65535)
    (renames : options.Renames capable pool last) :
    ∃ position body code, classFile.HasBody method position body ∧
      converted = method.withCode position code ∧ body.code.KeepsLimits code ∧
      body.Rewritten answers options classFile pool (Request.MetBy options capable last)
        code.code := by
  rcases exists_withCode succeeded with ⟨position, body, code, hasBody, rfl, limits, given⟩
  refine ⟨position, body, code, hasBody, rfl, limits, ?_⟩
  rcases given with ⟨forms, rfl, each⟩ | ⟨analysis, bench, analyzed, flattened, rfl⟩
  · exact MethodBody.rewritten_of_arrayForms hasBody.decoded each grows few renames
  · exact MethodBody.rewritten_of_flatten analyzed hasBody.decoded flattened grows few renames

/-! ## Classes -/

/-- What the descriptors of a class are flattened to, if they are. -/
theorem describe?_spec {classFile : ClassFile} {described : Option ClassFile}
    (describes : (classFile.describe? options).eval answers = .ok described) :
    classFile.Redescribes (described.getD classFile) ∧
      (classFile.pool.Slotted → (described.getD classFile).pool.Slotted) ∧
      classFile.pool.entries.size ≤ (described.getD classFile).pool.entries.size ∧
      ((described.getD classFile).pool.entries.size ≤ 65535 →
        options.Renames (capability answers) classFile.pool (described.getD classFile).pool) := by
  unfold describe? at describes
  split at describes
  · next isFlat =>
      rcases flattenDescriptors?_flattens describes with
        ⟨indices, last, isPool, grows, redescribes, flattens⟩
      have isSize : (described.getD classFile).pool.entries.size = last.entries.size := by
        rw [isPool, IndexMap.onPool, Array.size_map]
      rw [isSize, isPool]
      refine ⟨redescribes, fun slotted => IndexMap.slotted_onPool (slotted.grows grows),
        grows.size_le, fun few => ?_⟩
      constructor
      · intro index name named
        rw [ConvertOptions.className, if_pos isFlat]
        exact (flattens few).className? named
      · intro index member named
        rw [ConvertOptions.className, ConvertOptions.descriptor, if_pos isFlat, if_pos isFlat]
        exact (flattens few).member? named
  · next isNotFlat =>
      cases Inquiry.eval_pure_eq_ok_iff.1 describes
      refine ⟨.refl _, id, Nat.le_refl _, fun _ => ?_⟩
      constructor
      · intro index name named
        rw [ConvertOptions.className, if_neg isNotFlat]
        exact named
      · intro index member named
        rw [ConvertOptions.className, ConvertOptions.descriptor, if_neg isNotFlat,
          if_neg isNotFlat]
        exact named

/-- The class that a conversion writes fits the format: its pool has no more
slots than its size can say, and no text and no body of an attribute of a
converted method is longer than its length can say. -/
structure OutputFits (outcomes : List (Option Member)) (written : ClassFile) : Prop where
  slots : written.pool.entries.size ≤ 65534
  texts : ∀ constant ∈ written.pool.entries, constant.Fits
  bodies : ∀ outcome ∈ outcomes, ∀ method ∈ outcome, ∀ item ∈ method.attributes, item.Fits

instance (outcomes : List (Option Member)) (written : ClassFile) :
    Decidable (OutputFits outcomes written) :=
  decidable_of_iff
    (written.pool.entries.size ≤ 65534 ∧ (∀ constant ∈ written.pool.entries, constant.Fits) ∧
      ∀ outcome ∈ outcomes, ∀ method ∈ outcome, ∀ item ∈ method.attributes, item.Fits)
    ⟨fun ⟨slots, texts, bodies⟩ => ⟨slots, texts, bodies⟩,
      fun fits => ⟨fits.slots, fits.texts, fits.bodies⟩⟩

/-- The new code of a method at an index, read back from the class that was
written. The method was converted with the pool `before`. -/
def CodeReadBack (answers : String → Except OracleError Bool) (options : ConvertOptions)
    (classFile : ClassFile) (pool : ConstantPool) (result : ClassFile) (index : Nat)
    (converted : Member) : Prop :=
  ∃ method before after position body moved item code,
    classFile.methods[index]? = some method ∧
    classFile.pool.Grows before ∧ after.Grows pool ∧
    (convertMethod { classFile with pool := before } method options).eval answers =
      .ok (some converted, after) ∧
    HasBody { classFile with pool := before } method position body ∧
    result.methods[index]? = some moved ∧ moved.attributes[position]? = some item ∧
    CodeAttribute.read item.info = .ok (code, []) ∧
    body.Rewritten answers options { classFile with pool := before } pool
      (Request.MetBy options (capability answers) result.pool) code.code

variable {classFile : ClassFile} {outcomes : List (Option Member)} {pool : ConstantPool}

theorem getElem?_withMethods {index : Nat} {method : Member}
    (found : (classFile.withMethods outcomes pool).methods[index]? = some method) :
    ∃ outcome original, outcomes[index]? = some outcome ∧
      classFile.methods[index]? = some original ∧ method = outcome.getD original := by
  rw [withMethods, List.getElem?_zipWith] at found
  split at found
  · next outcome original atOutcome atOriginal =>
      cases found
      exact ⟨outcome, original, atOutcome, atOriginal, rfl⟩
  · cases found

/-- Everything but the pool still fits after the methods are converted. -/
theorem MethodsConverted.partsFit
    (converts : MethodsConverted answers options classFile classFile.methods outcomes pool)
    (parts : classFile.PartsFit)
    (bodies : ∀ outcome ∈ outcomes, ∀ method ∈ outcome, ∀ item ∈ method.attributes, item.Fits) :
    (classFile.withMethods outcomes pool).PartsFit where
  interfaces := parts.interfaces
  fieldCount := parts.fieldCount
  fields := parts.fields
  methodCount := by
    rw [withMethods, List.length_zipWith]
    exact Nat.le_trans (Nat.min_le_right _ _) parts.methodCount
  methods := by
    intro method found
    rcases List.getElem?_of_mem found with ⟨index, atIndex⟩
    rcases getElem?_withMethods atIndex with ⟨outcome, original, atOutcome, atOriginal, rfl⟩
    have fits := parts.methods original (List.mem_of_getElem? atOriginal)
    cases outcome with
    | none => exact fits
    | some converted =>
        refine ⟨?_, bodies _ (List.mem_of_getElem? atOutcome) converted rfl⟩
        rcases converts.exists_of_getElem? atOutcome with
          ⟨method, before, after, atMethod, _, _, succeeded⟩
        cases atOriginal.symm.trans atMethod
        rcases exists_withCode succeeded with ⟨position, body, code, _, rfl, _⟩
        rw [Option.getD_some, Member.withCode, List.length_modify]
        exact fits.count
  attributes := parts.attributes

section Written

variable {described : Option ClassFile}
  (converts : MethodsConverted answers options classFile classFile.methods outcomes pool)
  (describes : ((classFile.withMethods outcomes pool).describe? options).eval answers =
    .ok described)
  (fits : OutputFits outcomes (described.getD (classFile.withMethods outcomes pool)))
include converts describes fits

/-- A class that was parsed, converted and written is read back. -/
theorem parse_written (slotted : classFile.pool.Slotted) (parts : classFile.PartsFit) :
    parse (described.getD (classFile.withMethods outcomes pool)).syncCounts.toBytes =
      .ok (described.getD (classFile.withMethods outcomes pool)).syncCounts := by
  rcases describe?_spec describes with ⟨redescribes, slots, _, _⟩
  have written := redescribes.partsFit (converts.partsFit parts fits.bodies)
  have isSize : (UInt16.ofNat ((described.getD (classFile.withMethods outcomes
      pool)).pool.entries.size + 1)).toNat =
        (described.getD (classFile.withMethods outcomes pool)).pool.entries.size + 1 :=
    UInt16.toNat_ofNat_of_lt' (Nat.lt_succ_of_le (Nat.succ_le_succ fits.slots))
  exact parse_toBytes ⟨slots (slotted.grows converts.grows), isSize, fits.texts⟩
    ⟨written.interfaces, written.fieldCount, written.fields, written.methodCount,
      written.methods, written.attributes⟩

/-- The code of a converted method is found where its code was, and its constants
are those that were requested. -/
theorem codeReadBack {index : Nat} {converted : Member}
    (found : outcomes[index]? = some (some converted)) :
    CodeReadBack answers options classFile pool
      (described.getD (classFile.withMethods outcomes pool)).syncCounts index converted := by
  rcases describe?_spec describes with ⟨redescribes, _, sizeLe, renames⟩
  have few := Nat.le_succ_of_le fits.slots
  rcases converts.exists_of_getElem? found with
    ⟨method, before, after, atMethod, growsBefore, growsAfter, succeeded⟩
  have renamed : options.Renames (capability answers) pool
      (described.getD (classFile.withMethods outcomes pool)).syncCounts.pool :=
    ⟨(renames few).className, (renames few).member⟩
  rcases exists_rewritten succeeded growsAfter (Nat.le_trans sizeLe few) renamed with
    ⟨position, body, code, hasBody, rfl, limits, rewritten⟩
  -- The attribute of the code is still at its position after descriptors are flattened.
  rcases hasBody.code with ⟨old, _, atPosition, _, oldReads⟩
  have atNew : (method.withCode position code).attributes[position]? =
      some { old with info := code.toBytes } := by
    simp [Member.withCode, atPosition]
  have short := fits.bodies _ (List.mem_of_getElem? found) _ rfl _ (List.mem_of_getElem? atNew)
  have codeFits := limits.fits (CodeAttribute.gives_read _ _ _ oldReads) short
  have atIndex : (classFile.withMethods outcomes pool).methods[index]? =
      some (method.withCode position code) := by
    rw [withMethods, List.getElem?_zipWith, found, atMethod]
    rfl
  rcases Outcome.getElem?_of_forall₂ redescribes.methods atIndex with ⟨moved, atMoved, each⟩
  rcases Outcome.getElem?_of_forall₂ each atNew with ⟨item, atItem, redescribed⟩
  rcases redescribed.exists_read codeFits rfl with ⟨readBack, reads, isCode⟩
  exact ⟨method, before, after, position, body, moved, item, readBack, atMethod, growsBefore,
    growsAfter, succeeded, hasBody, atMoved, atItem, reads, isCode ▸ rewritten⟩

end Written

end ClassFile

/-- A conversion gives back its input, or it writes a class. If what it writes
fits the format, it is read back, and every constant that the conversion put into
code is there and names the class or the field that it was requested for. -/
theorem convert_readsBack (find : ClassFinder) (oracle : Oracle) (bytes : Bytes)
    (options : ConvertOptions) {out : Bytes}
    (converted : ((ClassFile.convert bytes options).run find oracle).result = .ok out) :
    ∃ classFile outcomes pool described written,
      ClassFile.parse bytes = .ok classFile ∧
      ClassFile.MethodsConverted (oracle.answer find) options classFile classFile.methods outcomes
        pool ∧
      ((classFile.withMethods outcomes pool).describe? options).eval (oracle.answer find) =
        .ok described ∧
      written = described.getD (classFile.withMethods outcomes pool) ∧
      ((outcomes.any Option.isSome || described.isSome) = false ∧ out = bytes ∨
        (outcomes.any Option.isSome || described.isSome) = true ∧
        out = written.syncCounts.toBytes ∧
        (ClassFile.OutputFits outcomes written →
          ∃ result, ClassFile.parse out = .ok result ∧
            ∀ (index : Nat) (method : Member), outcomes[index]? = some (some method) →
              ClassFile.CodeReadBack (oracle.answer find) options classFile pool result index
                method)) := by
  rw [Inquiry.run_result] at converted
  rcases ClassFile.convert_cases converted with
    ⟨classFile, outcomes, pool, described, parsed, converts, describes, isOut⟩
  refine ⟨classFile, outcomes, pool, described, _, parsed, converts, describes, rfl, ?_⟩
  rcases ClassFile.fits_of_parse parsed with ⟨slotted, parts⟩
  cases changed : outcomes.any Option.isSome || described.isSome with
  | false =>
      rw [changed] at isOut
      exact .inl ⟨rfl, isOut⟩
  | true =>
      rw [changed, if_pos rfl] at isOut
      refine .inr ⟨rfl, isOut, fun fits => ?_⟩
      rw [isOut]
      exact ⟨_, ClassFile.parse_written converts describes fits slotted parts,
        fun index method found => ClassFile.codeReadBack converts describes fits found⟩

/-- A class with a method that reads an array field of the value-capable `V`. -/
def ClassFile.fieldReader : ClassFile where
  minorVersion := 0
  majorVersion := 52
  pool := {
    size := 12
    entries := #[.utf8 (Bytes.ofText "C"), .classRef 1, .utf8 (Bytes.ofText "V"), .classRef 3,
      .utf8 (Bytes.ofText "f"), .utf8 (Bytes.ofText "[LV;"), .nameAndType 5 6, .fieldRef 4 7,
      .utf8 (Bytes.ofText "m"), .utf8 (Bytes.ofText "(LV;)[LV;"),
      .utf8 (Bytes.ofText "Code")] }
  access := 0
  thisClass := 2
  superClass := 0
  interfaces := []
  fields := []
  methods := [⟨0x0008, 9, 10,
    [⟨11, CodeAttribute.toBytes ⟨1, 1, [0x2a, 0xb4, 0, 8, 0xb0], [], []⟩⟩]⟩]
  attributes := []

/-- Whether what is written of a class with one method fits, by evaluation. -/
theorem ClassFile.outputFits_of_evaluates {classFile : ClassFile} {method : Member}
    {answers : String → Except OracleError Bool} {options : ConvertOptions}
    (isMethods : classFile.methods = [method])
    (evaluates : ((classFile.convertMethod method options).eval answers).toOption.any
      (fun outcome => outcome.1.isSome &&
        (((classFile.withMethods [outcome.1] outcome.2).describe? options).eval
          answers).toOption.any fun described =>
            decide (OutputFits [outcome.1]
              (described.getD (classFile.withMethods [outcome.1] outcome.2)))) = true)
    {outcomes : List (Option Member)} {pool : ConstantPool} {described : Option ClassFile}
    (converts : MethodsConverted answers options classFile classFile.methods outcomes pool)
    (describes : ((classFile.withMethods outcomes pool).describe? options).eval answers =
      .ok described) :
    ∃ converted, outcomes = [some converted] ∧
      OutputFits outcomes (described.getD (classFile.withMethods outcomes pool)) := by
  rw [isMethods] at converts
  cases converts with
  | cons here rest =>
      cases rest
      dsimp only at describes
      rw [here, Except.toOption, Option.any_some] at evaluates
      dsimp only at evaluates
      rw [describes] at evaluates
      rcases Bool.and_eq_true_iff.1 evaluates with ⟨isChanged, fits⟩
      rcases Option.isSome_iff_exists.1 isChanged with ⟨converted, rfl⟩
      exact ⟨converted, rfl, of_decide_eq_true fits⟩

/-- The method of `fieldReader` is converted, and what is written fits. -/
theorem ClassFile.outputFits_fieldReader (flatArrays : Bool) {outcomes : List (Option Member)}
    {pool : ConstantPool} {described : Option ClassFile}
    (converts : MethodsConverted (fun other => .ok ("V" == other)) ⟨flatArrays⟩ fieldReader
      fieldReader.methods outcomes pool)
    (describes : ((fieldReader.withMethods outcomes pool).describe? ⟨flatArrays⟩).eval
      (fun other => .ok ("V" == other)) = .ok described) :
    ∃ method, outcomes = [some method] ∧
      OutputFits outcomes (described.getD (fieldReader.withMethods outcomes pool)) := by
  refine outputFits_of_evaluates rfl ?_ converts describes
  cases flatArrays <;> decide +kernel

/-- The prologue, the field that is read through the value class and the
flattened descriptors of `fieldReader`, read back. -/
theorem convert_readsBack_fieldReader : ∃ out method pool written result,
    ((ClassFile.convert ClassFile.fieldReader.toBytes {}).run (fun _ => .absent)
        (.knowing "V")).result = .ok out ∧
      out = written.syncCounts.toBytes ∧ ClassFile.OutputFits [some method] written ∧
      ClassFile.parse out = .ok result ∧
      ClassFile.CodeReadBack (Oracle.answer (fun _ => .absent) (.knowing "V")) {}
        ClassFile.fieldReader pool result 0 method := by
  have succeeds : ((ClassFile.convert ClassFile.fieldReader.toBytes {}).run (fun _ => .absent)
      (.knowing "V")).result.toOption.any (fun _ => true) = true := by
    rw [Inquiry.run_result, Oracle.answer_knowing]
    decide +kernel
  have parses : ClassFile.parse ClassFile.fieldReader.toBytes = .ok ClassFile.fieldReader := by
    decide +kernel
  rcases Outcome.exists_of_any _ succeeds with ⟨out, converted, _⟩
  rcases convert_readsBack _ _ _ _ converted with
    ⟨classFile, outcomes, pool, described, _, parsed, converts, describes, rfl, outcome⟩
  cases parses.symm.trans parsed
  rcases ClassFile.outputFits_fieldReader true (Oracle.answer_knowing "V" ▸ converts)
    (Oracle.answer_knowing "V" ▸ describes) with ⟨method, rfl, fits⟩
  rcases outcome with ⟨unchanged, _⟩ | ⟨_, isOut, readsBack⟩
  · cases unchanged
  · rcases readsBack fits with ⟨result, parsesBack, each⟩
    exact ⟨out, method, pool, _, result, converted, isOut, fits, parsesBack, each 0 method rfl⟩

end ValueForm
