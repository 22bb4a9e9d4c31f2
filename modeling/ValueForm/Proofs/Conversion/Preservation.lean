import ValueForm.Proofs.Conversion.Coverage
import ValueForm.Proofs.Conversion.Output

/-!
# What a conversion keeps

A conversion changes code and, if arrays of values are wanted, descriptors.
Everything else of a class is read back from what is written as it was. Constants
are added, and of those there already only an index to a descriptor can change,
so every index in the parts that are kept still finds what it found.
-/

namespace ValueForm

section Preserved

variable (answers : String → Except OracleError Bool) (options : ConvertOptions)
  (pool : ConstantPool)

/-- The index of a descriptor stays, or it is pointed to the flattened form of
the text it has in the pool. -/
inductive ConstantPool.Repoints (index : UInt16) : UInt16 → Prop
  | kept : Repoints index index
  | moved {index' : UInt16} {text changed : String} (isFlat : options.flatArrays = true)
      (isText : pool.text? index = some text)
      (flat : flattening answers text = .ok (some changed))
      (named : pool.text? index' = some changed) : Repoints index index'

/-- A constant stays, but that a descriptor or the name of an array class may be
repointed. -/
inductive ConstantPool.KeepsConstant : Constant → Constant → Prop
  | same (constant : Constant) : KeepsConstant constant constant
  | nameAndType {name descriptor descriptor' : UInt16}
      (repoints : pool.Repoints answers options descriptor descriptor') :
      KeepsConstant (.nameAndType name descriptor) (.nameAndType name descriptor')
  | methodType {descriptor descriptor' : UInt16}
      (repoints : pool.Repoints answers options descriptor descriptor') :
      KeepsConstant (.methodType descriptor) (.methodType descriptor')
  | arrayClass {name name' : UInt16} (isArray : pool.namesArrayClass (.classRef name) = true)
      (repoints : pool.Repoints answers options name name') :
      KeepsConstant (.classRef name) (.classRef name')

/-- An attribute stays, but that the body of code may be replaced by one with the
same room, which is read back unless it is too long for any attribute. -/
inductive Attribute.KeptIn : Attribute → Attribute → Prop
  | same (item : Attribute) : KeptIn item item
  | code {item : Attribute} {rest : Bytes} {old new : CodeAttribute}
      (isCode : item.isNamed pool codeName = true)
      (reads : CodeAttribute.read item.info = .ok (old, rest)) (room : old.KeepsRoom new)
      (readsBack : new.toBytes.length < 2 ^ 32 →
        CodeAttribute.read new.toBytes = .ok (new, [])) :
      KeptIn item { item with info := new.toBytes }

/-- A method of which only its descriptor and its code may differ. -/
structure Member.KeptIn (method method' : Member) : Prop where
  access : method'.access = method.access
  name : method'.name = method.name
  descriptor : pool.Repoints answers options method.descriptor method'.descriptor
  attributes : List.Forall₂ (Attribute.KeptIn pool) method.attributes method'.attributes

end Preserved

/-- A class of which only code and descriptors differ. Constants are found where
they were. -/
structure ClassFile.Preserved (answers : String → Except OracleError Bool)
    (options : ConvertOptions) (old new : ClassFile) : Prop where
  rest : new = { old with pool := new.pool, fields := new.fields, methods := new.methods }
  fields : List.Forall₂ (fun field field' =>
    field' = { field with descriptor := field'.descriptor } ∧
      new.pool.Repoints answers options field.descriptor field'.descriptor) old.fields new.fields
  methods : List.Forall₂ (Member.KeptIn answers options new.pool) old.methods new.methods
  constants : ∀ (index : UInt16) (constant : Constant), old.pool.get? index = some constant →
    ∃ constant', new.pool.get? index = some constant' ∧
      new.pool.KeepsConstant answers options constant constant'

variable {answers : String → Except OracleError Bool} {options : ConvertOptions}

/-! ## Constants -/

namespace ConstantPool

variable {pool last : ConstantPool}
  (texts : ∀ index text, pool.text? index = some text → last.text? index = some text)
include texts

theorem namesArrayClass_mono {name : UInt16}
    (isArray : pool.namesArrayClass (.classRef name) = true) :
    last.namesArrayClass (.classRef name) = true := by
  cases isText : pool.text? name with
  | none => simp [namesArrayClass, isText] at isArray
  | some text =>
      rw [namesArrayClass_classRef isText] at isArray
      rw [namesArrayClass_classRef (texts name text isText), isArray]

theorem Repoints.mono {index index' : UInt16}
    (repoints : pool.Repoints answers options index index') :
    last.Repoints answers options index index' := by
  cases repoints with
  | kept => exact .kept
  | moved isFlat isText flat named =>
      exact .moved isFlat (texts _ _ isText) flat (texts _ _ named)

theorem KeepsConstant.mono {constant constant' : Constant}
    (keeps : pool.KeepsConstant answers options constant constant') :
    last.KeepsConstant answers options constant constant' := by
  cases keeps with
  | same => exact .same _
  | nameAndType repoints => exact .nameAndType (repoints.mono texts)
  | methodType repoints => exact .methodType (repoints.mono texts)
  | arrayClass isArray repoints =>
      exact .arrayClass (namesArrayClass_mono texts isArray) (repoints.mono texts)

end ConstantPool

/-! ## Code -/

namespace CodeAttribute

theorem KeepsRoom.trans {first second third : CodeAttribute} (earlier : first.KeepsRoom second)
    (later : second.KeepsRoom third) : first.KeepsRoom third where
  maxLocals := later.maxLocals.trans earlier.maxLocals
  maxStack := by
    rcases earlier.maxStack with same | ⟨none, one⟩
    · rw [← same]
      exact later.maxStack
    · rcases later.maxStack with same | ⟨none', _⟩
      · exact .inr ⟨none, same.trans one⟩
      · cases one.symm.trans none'

/-- What is read from the encoding of code has the room of that code, also where
the code does not fit and something else is read. -/
theorem keepsRoom_of_read {body body' : CodeAttribute} {rest : Bytes}
    (reads : read body.toBytes = .ok (body', rest)) : body.KeepsRoom body' := by
  simp only [toBytes, List.append_assoc] at reads
  rcases Reader.bind_eq_ok_iff.1 reads with ⟨maxStack, _, isStack, reads⟩
  rw [Reader.u16_ofUInt16] at isStack
  cases isStack
  rcases Reader.bind_eq_ok_iff.1 reads with ⟨maxLocals, _, isLocals, reads⟩
  rw [Reader.u16_ofUInt16] at isLocals
  cases isLocals
  rcases Reader.bind_eq_ok_iff.1 reads with ⟨_, _, _, reads⟩
  rcases Reader.bind_eq_ok_iff.1 reads with ⟨_, _, _, reads⟩
  rcases Reader.bind_eq_ok_iff.1 reads with ⟨_, _, _, reads⟩
  rcases Reader.bind_eq_ok_iff.1 reads with ⟨_, _, _, reads⟩
  cases reads
  exact ⟨rfl, .inl rfl⟩

end CodeAttribute

namespace Attribute.KeptIn

variable {pool last : ConstantPool} {first second third : Attribute}

theorem trans (earlier : first.KeptIn pool second) (later : second.KeptIn pool third) :
    first.KeptIn pool third := by
  cases earlier with
  | same => exact later
  | code isCode reads room readsBack =>
      cases later with
      | same => exact .code isCode reads room readsBack
      | code _ again room' readsBack' =>
          have between := CodeAttribute.keepsRoom_of_read again
          exact .code isCode reads ((room.trans between).trans room') readsBack'

theorem mono (kept : first.KeptIn pool second)
    (texts : ∀ index text, pool.text? index = some text → last.text? index = some text) :
    first.KeptIn last second := by
  cases kept with
  | same => exact .same _
  | code isCode reads room readsBack =>
      exact .code (beq_iff_eq.2 (texts _ _ (beq_iff_eq.1 isCode))) reads room readsBack

/-- Code whose tables are redescribed keeps its room. -/
theorem of_redescribes (redescribes : first.Redescribes second)
    (isCode : first.isNamed pool codeName = true) : first.KeptIn pool second := by
  cases redescribes with
  | same => exact .same _
  | @code code rest tables reads each =>
      have fits := CodeAttribute.gives_read _ _ _ reads
      have fits' : CodeAttribute.Fits { code with attributes := tables } :=
        ⟨fits.code, fits.exceptions, fits.attributes.shorten each⟩
      exact .code isCode reads ⟨rfl, .inl rfl⟩ fun _ => CodeAttribute.read_toBytes fits'

end Attribute.KeptIn

/-! ## Methods -/

namespace ClassFile

variable {classFile : ClassFile}

/-- A method that changes keeps everything but its code. -/
theorem keptIn_of_convertMethod {method converted : Member} {pool : ConstantPool}
    (succeeded : (classFile.convertMethod method options).eval answers =
      .ok (some converted, pool)) :
    converted = { method with attributes := converted.attributes } ∧
      List.Forall₂ (Attribute.KeptIn pool) method.attributes converted.attributes := by
  have grows := grows_of_convertMethod succeeded
  rcases exists_withCode succeeded with ⟨position, body, code, hasBody, rfl, limits, _⟩
  rcases hasBody.code with ⟨item, rest, atPosition, isCode, reads⟩
  refine ⟨rfl, Outcome.forall₂_modify .same atPosition ?_⟩
  refine .code (beq_iff_eq.2 (grows.text? (beq_iff_eq.1 isCode))) reads limits.toKeepsRoom ?_
  intro short
  exact CodeAttribute.read_toBytes (limits.fits (CodeAttribute.gives_read _ _ _ reads) short)

/-- Methods that were converted keep everything but their code. -/
theorem MethodsConverted.keptIn {methods : List Member} {outcomes : List (Option Member)}
    {last : ConstantPool}
    (converts : MethodsConverted answers options classFile methods outcomes last) :
    List.Forall₂ (fun method method' =>
      method' = { method with attributes := method'.attributes } ∧
        List.Forall₂ (Attribute.KeptIn last) method.attributes method'.attributes)
      methods (List.zipWith Option.getD outcomes methods) := by
  induction converts with
  | nil => exact .nil
  | @cons classFile method methods converted others pool last here rest ih =>
      refine .cons ?_ ih
      cases converted with
      | none => exact ⟨rfl, List.forall₂_same.2 fun item _ => .same item⟩
      | some converted =>
          rcases keptIn_of_convertMethod here with ⟨isConverted, attributes⟩
          exact ⟨isConverted, attributes.imp fun _ _ kept =>
            kept.mono fun _ _ => rest.grows.text?⟩

/-! ## Classes -/

theorem Preserved.refl (classFile : ClassFile) : classFile.Preserved answers options classFile where
  rest := rfl
  fields := List.forall₂_same.2 fun _ _ => ⟨rfl, .kept⟩
  methods := List.forall₂_same.2 fun _ _ =>
    ⟨rfl, rfl, .kept, List.forall₂_same.2 fun item _ => .same item⟩
  constants := fun _ constant found => ⟨constant, found, .same constant⟩

/-- Texts are constants that stay. -/
theorem Preserved.text? {old new : ClassFile} (preserved : old.Preserved answers options new)
    {index : UInt16} {text : String} (found : old.pool.text? index = some text) :
    new.pool.text? index = some text := by
  unfold ConstantPool.text? at found
  split at found
  · next bytes isText =>
      rcases preserved.constants index _ isText with ⟨_, atIndex, kept⟩
      cases kept
      rw [ConstantPool.text?, atIndex]
      exact found
  · cases found

/-- Flattening descriptors keeps everything else. -/
theorem flattenDescriptors?_preserved {described : Option ClassFile}
    (isFlat : options.flatArrays = true)
    (flattened : classFile.flattenDescriptors?.eval answers = .ok described)
    (few : (described.getD classFile).pool.entries.size ≤ 65535) :
    classFile.Preserved answers options (described.getD classFile) := by
  have remapped := flattenDescriptors?_remapped flattened few
  rcases flattenDescriptors?_replaces flattened with ⟨_, _, _, replaces⟩
  generalize described.getD classFile = new at *
  have texts (index : UInt16) (text : String) (found : classFile.pool.text? index = some text) :
      new.pool.text? index = some text :=
    (replaces.text? index).trans (replaces.grows.text? found)
  have repoints {index index' : UInt16}
      (remaps : ConstantPool.Remaps answers classFile.pool new.pool index index') :
      new.pool.Repoints answers options index index' := by
    cases remaps with
    | kept => exact .kept
    | moved isText flat named => exact .moved isFlat (texts _ _ isText) flat named
  refine ⟨remapped.rest, ?_, ?_, ?_⟩
  · exact remapped.fields.imp fun _ _ here => ⟨here.1, repoints here.2⟩
  · refine (Outcome.forall₂_and remapped.methods replaces.redescribes.methods).imp ?_
    rintro method method' ⟨remaps, redescribes⟩
    refine ⟨by rw [remaps.rest], by rw [remaps.rest], repoints remaps.descriptor, ?_⟩
    refine (Outcome.forall₂_and remaps.attributes redescribes).imp ?_
    rintro item item' ⟨⟨_, _, other⟩, redescribed⟩
    by_cases isFirst : new.pool.textIndex? Attribute.codeName = some item.name
    · exact .of_redescribes redescribed
        (beq_iff_eq.2 (ConstantPool.text?_of_textIndex? few isFirst))
    · rw [other isFirst]
      exact .same item
  · intro index constant found
    rcases remapped.constants index constant found with ⟨constant', found', remaps⟩
    refine ⟨constant', found', ?_⟩
    cases remaps with
    | nameAndType remaps => exact .nameAndType (repoints remaps)
    | methodType remaps => exact .methodType (repoints remaps)
    | arrayClass isArray remaps =>
        exact .arrayClass (ConstantPool.namesArrayClass_mono texts isArray) (repoints remaps)
    | kept => exact .same _

/-- What follows on the conversion of the methods keeps everything but code and
descriptors, and so does the whole. -/
theorem MethodsConverted.preserved {outcomes : List (Option Member)} {pool : ConstantPool}
    (converts : MethodsConverted answers options classFile classFile.methods outcomes pool)
    {new : ClassFile}
    (later : (classFile.withMethods outcomes pool).Preserved answers options new) :
    classFile.Preserved answers options new where
  rest := later.rest
  fields := later.fields
  methods := by
    refine (Outcome.forall₂_comp converts.keptIn later.methods).imp ?_
    rintro method method' ⟨between, ⟨isBetween, attributes⟩, kept⟩
    rw [isBetween] at kept
    refine ⟨kept.access, kept.name, kept.descriptor, ?_⟩
    refine (Outcome.forall₂_comp attributes kept.attributes).imp ?_
    rintro item item' ⟨_, here, there⟩
    exact (here.mono fun _ _ => later.text?).trans there
  constants := fun index constant found =>
    later.constants index constant (converts.grows.get? found)

/-- The size that a pool declares is not looked at. -/
theorem Preserved.syncCounts {old new : ClassFile} (preserved : old.Preserved answers options new) :
    old.Preserved answers options new.syncCounts := by
  have texts (index : UInt16) (text : String) (found : new.pool.text? index = some text) :
      new.syncCounts.pool.text? index = some text := found
  refine ⟨?_, ?_, ?_, ?_⟩
  · conv_lhs => rw [preserved.rest]
    rfl
  · exact preserved.fields.imp fun _ _ here => ⟨here.1, here.2.mono texts⟩
  · refine preserved.methods.imp fun _ _ kept => ?_
    exact ⟨kept.access, kept.name, kept.descriptor.mono texts,
      kept.attributes.imp fun _ _ here => here.mono texts⟩
  · intro index constant found
    rcases preserved.constants index constant found with ⟨constant', found', keeps⟩
    exact ⟨constant', found', keeps.mono texts⟩

/-- A conversion keeps everything but code and descriptors. -/
theorem MethodsConverted.preserved_describe? {outcomes : List (Option Member)}
    {pool : ConstantPool} {described : Option ClassFile}
    (converts : MethodsConverted answers options classFile classFile.methods outcomes pool)
    (describes : ((classFile.withMethods outcomes pool).describe? options).eval answers =
      .ok described)
    (few : (described.getD (classFile.withMethods outcomes pool)).pool.entries.size ≤ 65535) :
    classFile.Preserved answers options
      (described.getD (classFile.withMethods outcomes pool)).syncCounts := by
  refine (converts.preserved ?_).syncCounts
  unfold describe? at describes
  split at describes
  · next isFlat => exact flattenDescriptors?_preserved isFlat describes few
  · cases Inquiry.eval_pure_eq_ok_iff.1 describes
    exact .refl _

/-- Without arrays of values no descriptor and no constant changes. -/
theorem Preserved.keeps_descriptors {old new : ClassFile}
    (preserved : old.Preserved answers options new) (notFlat : options.flatArrays = false) :
    new.fields = old.fields ∧
      new.methods.map (·.descriptor) = old.methods.map (·.descriptor) ∧
      ∀ (index : UInt16) (constant : Constant), old.pool.get? index = some constant →
        new.pool.get? index = some constant := by
  have same {index index' : UInt16} (repoints : new.pool.Repoints answers options index index') :
      index' = index := by
    cases repoints with
    | kept => rfl
    | moved isFlat => cases notFlat.symm.trans isFlat
  refine ⟨?_, ?_, ?_⟩
  · have each := preserved.fields.imp fun field field' here =>
      show field = field' by rw [here.1, same here.2]
    rw [List.forall₂_eq_eq_eq] at each
    exact each.symm
  · have each : List.Forall₂ Eq (old.methods.map (·.descriptor)) (new.methods.map (·.descriptor)) :=
      List.forall₂_map_left_iff.2 (List.forall₂_map_right_iff.2
        (preserved.methods.imp fun _ _ kept => (same kept.descriptor).symm))
    rw [List.forall₂_eq_eq_eq] at each
    exact each.symm
  · intro index constant found
    rcases preserved.constants index constant found with ⟨constant', found', keeps⟩
    rw [found']
    cases keeps with
    | same => rfl
    | nameAndType repoints | methodType repoints | arrayClass _ repoints => rw [same repoints]

/-- A conversion gives back its input, or it writes a class. Only code and
descriptors of that class differ from what was given, and descriptors and
constants only if arrays of values are wanted. If it fits the format, it is what
is read back. -/
theorem convert_preserves (find : ClassFinder) (oracle : Oracle) (bytes : Bytes)
    (options : ConvertOptions) {out : Bytes}
    (converted : ((convert bytes options).run find oracle).result = .ok out) :
    ∃ classFile outcomes pool described written result,
      parse bytes = .ok classFile ∧
      MethodsConverted (oracle.answer find) options classFile classFile.methods outcomes pool ∧
      ((classFile.withMethods outcomes pool).describe? options).eval (oracle.answer find) =
        .ok described ∧
      written = described.getD (classFile.withMethods outcomes pool) ∧
      (out = bytes ∧ result = classFile ∨
        out = result.toBytes ∧ result = written.syncCounts) ∧
      (written.pool.entries.size ≤ 65534 →
        classFile.Preserved (oracle.answer find) options result ∧
        (options.flatArrays = false →
          result.fields = classFile.fields ∧
          result.methods.map (·.descriptor) = classFile.methods.map (·.descriptor) ∧
          ∀ (index : UInt16) (constant : Constant), classFile.pool.get? index = some constant →
            result.pool.get? index = some constant)) ∧
      (OutputFits outcomes written → parse out = .ok result) := by
  rw [Inquiry.run_result] at converted
  rcases convert_cases converted with
    ⟨classFile, outcomes, pool, described, parsed, converts, describes, isOut⟩
  split at isOut
  · rcases fits_of_parse parsed with ⟨slotted, parts⟩
    refine ⟨classFile, outcomes, pool, described, _, _, parsed, converts, describes, rfl,
      .inr ⟨isOut, rfl⟩, ?_, ?_⟩
    · intro slots
      have preserved := converts.preserved_describe? describes (Nat.le_succ_of_le slots)
      exact ⟨preserved, preserved.keeps_descriptors⟩
    · intro fits
      rw [isOut]
      exact parse_written converts describes fits slotted parts
  · refine ⟨classFile, outcomes, pool, described, _, classFile, parsed, converts, describes, rfl,
      .inl ⟨isOut, rfl⟩, ?_, ?_⟩
    · intro _
      have preserved : classFile.Preserved (oracle.answer find) options classFile := .refl _
      exact ⟨preserved, preserved.keeps_descriptors⟩
    · intro _
      rw [isOut]
      exact parsed

/-- What `fieldReader` keeps, with and without arrays of values. -/
theorem convert_preserves_fieldReader :
    (∃ out result,
      ((convert fieldReader.toBytes ⟨true⟩).run (fun _ => .absent) (.knowing "V")).result =
        .ok out ∧
      parse out = .ok result ∧
      fieldReader.Preserved (Oracle.answer (fun _ => .absent) (.knowing "V")) ⟨true⟩ result) ∧
    ∃ out result,
      ((convert fieldReader.toBytes ⟨false⟩).run (fun _ => .absent) (.knowing "V")).result =
        .ok out ∧
      parse out = .ok result ∧
      fieldReader.Preserved (Oracle.answer (fun _ => .absent) (.knowing "V")) ⟨false⟩ result ∧
      ∀ (index : UInt16) (constant : Constant), fieldReader.pool.get? index = some constant →
        result.pool.get? index = some constant := by
  have succeeds : ∀ flatArrays, ((convert fieldReader.toBytes ⟨flatArrays⟩).eval
      (fun other => .ok ("V" == other))).toOption.any (fun _ => true) = true := by
    decide +kernel
  have parses : parse fieldReader.toBytes = .ok fieldReader := by
    decide +kernel
  have preserves (flatArrays : Bool) : ∃ out result,
      ((convert fieldReader.toBytes ⟨flatArrays⟩).run (fun _ => .absent) (.knowing "V")).result =
        .ok out ∧
      parse out = .ok result ∧
      fieldReader.Preserved (Oracle.answer (fun _ => .absent) (.knowing "V")) ⟨flatArrays⟩ result ∧
      (flatArrays = false → ∀ (index : UInt16) (constant : Constant),
        fieldReader.pool.get? index = some constant → result.pool.get? index = some constant) := by
    rcases Outcome.exists_of_any _ (succeeds flatArrays) with ⟨out, evaluated, _⟩
    have converted : ((convert fieldReader.toBytes ⟨flatArrays⟩).run (fun _ => .absent)
        (.knowing "V")).result = .ok out := by
      rw [Inquiry.run_result, Oracle.answer_knowing, evaluated]
    rcases convert_preserves _ _ _ _ converted with
      ⟨_, outcomes, pool, described, _, result, parsed, converts, describes, rfl, _, keeps,
        readsBack⟩
    cases parses.symm.trans parsed
    rcases outputFits_fieldReader flatArrays (Oracle.answer_knowing "V" ▸ converts)
      (Oracle.answer_knowing "V" ▸ describes) with ⟨_, _, fits⟩
    rcases keeps fits.slots with ⟨preserved, same⟩
    exact ⟨out, result, converted, readsBack fits, preserved, fun notFlat => (same notFlat).2.2⟩
  rcases preserves true with ⟨out, result, converted, parsesBack, preserved, _⟩
  rcases preserves false with ⟨out', result', converted', parsesBack', preserved', same⟩
  exact ⟨⟨out, result, converted, parsesBack, preserved⟩, out', result', converted', parsesBack',
    preserved', same rfl⟩

end ClassFile

end ValueForm
