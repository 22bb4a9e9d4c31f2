import ValueForm.Proofs.Conversion.Replacement

/-!
# Uses of descriptors

Flattening the descriptors of a class reaches every use of one: those of fields
and methods, those of constants, among them the names of array classes, and those
of local variables. A use whose text changes is pointed to an entry with the new
text; every other use stays, and so does every text.

Tables of local variables are found by the first entries that spell their name
and the name of code. A table that is named by a second entry of the same text
counts as a use but is not changed.
-/

namespace ValueForm

/-- What flattening makes of a descriptor, according to answers. -/
def flattening (answers : String → Except OracleError Bool) (descriptor : String) :
    Except ConvertError (Option String) :=
  (flattenDescriptor (Inquiry.capable ConvertError.oracle) descriptor).eval answers

section Remapped

variable (answers : String → Except OracleError Bool) (old new : ConstantPool)

/-- A use of a descriptor goes from an index to another. -/
inductive ConstantPool.Remaps (index : UInt16) : UInt16 → Prop
  /-- The text is one that flattening leaves as it is. -/
  | kept (same : ∀ text, old.text? index = some text →
        flattening answers text = .ok none ∧ new.text? index = some text) :
      Remaps index index
  | moved {index' : UInt16} {text changed : String} (isText : old.text? index = some text)
      (flat : flattening answers text = .ok (some changed))
      (named : new.text? index' = some changed) : Remaps index index'

/-- A constant whose descriptor, if it uses one, is remapped. -/
inductive ConstantPool.RemapsConstant : Constant → Constant → Prop
  | nameAndType {name descriptor descriptor' : UInt16}
      (remaps : Remaps answers old new descriptor descriptor') :
      RemapsConstant (.nameAndType name descriptor) (.nameAndType name descriptor')
  | methodType {descriptor descriptor' : UInt16}
      (remaps : Remaps answers old new descriptor descriptor') :
      RemapsConstant (.methodType descriptor) (.methodType descriptor')
  | arrayClass {name name' : UInt16} (isArray : old.namesArrayClass (.classRef name) = true)
      (remaps : Remaps answers old new name name') :
      RemapsConstant (.classRef name) (.classRef name')
  | kept {constant : Constant} (usesNone : old.descriptorIndex? constant = none) :
      RemapsConstant constant constant

/-- A table of local variables whose descriptors are remapped. -/
def Attribute.RemapsVariables (table table' : Attribute) : Prop :=
  ∃ rows rest rows' rest', LocalVariable.readTable table.info = .ok (rows, rest) ∧
    LocalVariable.readTable table'.info = .ok (rows', rest') ∧
    List.Forall₂ (fun row row' => row' = { row with descriptor := row'.descriptor } ∧
      ConstantPool.Remaps answers old new row.descriptor row'.descriptor) rows rows'

/-- Code of which only tables of local variables differ. -/
def Attribute.RemapsCode (item item' : Attribute) : Prop :=
  ∃ code rest code' rest', CodeAttribute.read item.info = .ok (code, rest) ∧
    CodeAttribute.read item'.info = .ok (code', rest') ∧
    code' = { code with attributes := code'.attributes } ∧
    List.Forall₂ (fun table table' => table'.name = table.name ∧
      (old.textIndex? Attribute.localVariableTableName = some table.name →
        table.RemapsVariables answers old new table') ∧
      (new.textIndex? Attribute.localVariableTableName ≠ some table.name → table' = table))
      code.attributes code'.attributes

/-- A method whose descriptor and those of its local variables are remapped. -/
structure Member.RemapsMethod (method method' : Member) : Prop where
  rest : method' = { method with
    descriptor := method'.descriptor, attributes := method'.attributes }
  descriptor : ConstantPool.Remaps answers old new method.descriptor method'.descriptor
  attributes : List.Forall₂ (fun item item' => item'.name = item.name ∧
    (old.textIndex? Attribute.codeName = some item.name → item.RemapsCode answers old new item') ∧
    (new.textIndex? Attribute.codeName ≠ some item.name → item' = item))
    method.attributes method'.attributes

end Remapped

/-- A class in which every use of a descriptor is remapped, and nothing else is
changed. -/
structure ClassFile.Remapped (answers : String → Except OracleError Bool) (old new : ClassFile) :
    Prop where
  rest : new = { old with pool := new.pool, fields := new.fields, methods := new.methods }
  fields : List.Forall₂ (fun field field' =>
    field' = { field with descriptor := field'.descriptor } ∧
      ConstantPool.Remaps answers old.pool new.pool field.descriptor field'.descriptor)
    old.fields new.fields
  methods : List.Forall₂ (Member.RemapsMethod answers old.pool new.pool) old.methods new.methods
  constants : ∀ (index : UInt16) (constant : Constant), old.pool.get? index = some constant →
    ∃ constant', new.pool.get? index = some constant' ∧
      ConstantPool.RemapsConstant answers old.pool new.pool constant constant'

/-! ## Code -/

section Code

variable {answers : String → Except OracleError Bool} {old new : ConstantPool}

theorem Attribute.remapsVariables_refl {table : Attribute} {rows : List LocalVariable}
    {rest : Bytes} (lists : LocalVariable.readTable table.info = .ok (rows, rest))
    (each : ∀ row ∈ rows, ConstantPool.Remaps answers old new row.descriptor row.descriptor) :
    table.RemapsVariables answers old new table :=
  ⟨rows, rest, rows, rest, lists, lists, List.forall₂_same.2 fun row isRow => ⟨rfl, each row isRow⟩⟩

theorem Attribute.remapsCode_refl {item : Attribute} {code : CodeAttribute} {rest : Bytes}
    (reads : CodeAttribute.read item.info = .ok (code, rest))
    (each : ∀ table ∈ code.attributes,
      old.textIndex? localVariableTableName = some table.name →
        table.RemapsVariables answers old new table) :
    item.RemapsCode answers old new item :=
  ⟨code, rest, code, rest, reads, reads, rfl,
    List.forall₂_same.2 fun table isTable => ⟨rfl, each table isTable, fun _ => rfl⟩⟩

namespace IndexMap

variable {indices : IndexMap}

theorem apply_of_not_contains {index : UInt16} (unmapped : indices.contains index = false) :
    indices.apply index = index := by
  rw [Std.TreeMap.contains_eq_isSome_getElem?, Option.isSome_eq_false_iff,
    Option.isNone_iff_eq_none] at unmapped
  rw [apply, unmapped, Option.getD_none]

/-- The descriptors of a table of local variables are replaced one by one. If
none of them is, the table still lists what it listed. -/
theorem remapsVariables_onVariables {table table' : Attribute} {touched : Bool}
    (moved : indices.onVariables table = .ok (table', touched))
    (remaps : ∀ rows rest, LocalVariable.readTable table.info = .ok (rows, rest) →
      ∀ row ∈ rows, ConstantPool.Remaps answers old new row.descriptor
        (indices.apply row.descriptor)) :
    table.RemapsVariables answers old new table' ∧
      (touched = false → table.RemapsVariables answers old new table) := by
  unfold onVariables at moved
  split at moved
  · cases moved
  · next rows rest lists =>
      cases moved
      rcases LocalVariable.exact_read.consumes_counted16 _ _ _ lists with ⟨_, _, few, _⟩
      constructor
      · refine ⟨rows, rest, _, [], lists,
          LocalVariable.readTable_tableBytes (by rwa [List.length_map]), ?_⟩
        refine List.forall₂_map_right_iff.2 (List.forall₂_same.2 fun row isRow => ⟨rfl, ?_⟩)
        exact remaps rows rest lists row isRow
      · intro untouched
        refine Attribute.remapsVariables_refl lists fun row isRow => ?_
        have unmapped := List.any_eq_false.1 untouched row isRow
        rw [Bool.not_eq_true] at unmapped
        have here := remaps rows rest lists row isRow
        rwa [apply_of_not_contains unmapped] at here

theorem name_onVariables {table table' : Attribute} {touched : Bool}
    (moved : indices.onVariables table = .ok (table', touched)) : table'.name = table.name := by
  unfold onVariables at moved
  split at moved
  · cases moved
  · cases moved
    rfl

theorem name_onCode {tableName : UInt16} {item item' : Attribute}
    (moved : indices.onCode tableName item = .ok item') : item'.name = item.name := by
  cases redescribes_onCode moved <;> rfl

/-- Of code the tables of local variables are replaced. -/
theorem remapsCode_onCode {tableName : UInt16} {item item' : Attribute}
    (moved : indices.onCode tableName item = .ok item')
    (isNew : new.textIndex? Attribute.localVariableTableName = some tableName)
    (isOld : ∀ name, old.textIndex? Attribute.localVariableTableName = some name →
      name = tableName)
    (remaps : ∀ code rest, CodeAttribute.read item.info = .ok (code, rest) →
      ∀ table ∈ code.attributes,
        old.textIndex? Attribute.localVariableTableName = some table.name →
        ∀ rows rest, LocalVariable.readTable table.info = .ok (rows, rest) →
          ∀ row ∈ rows, ConstantPool.Remaps answers old new row.descriptor
            (indices.apply row.descriptor)) :
    item.RemapsCode answers old new item' := by
  unfold onCode at moved
  split at moved
  · cases moved
  · next code rest reads =>
      rcases Outcome.bind_eq_ok_iff.1 moved with ⟨tables, traversed, ended⟩
      -- What becomes of each table, and what is left of it if nothing in it changes.
      have each : List.Forall₂ (fun (table : Attribute) (result : Attribute × Bool) =>
          result.1.info.length ≤ table.info.length ∧ result.1.name = table.name ∧
          (old.textIndex? Attribute.localVariableTableName = some table.name →
            table.RemapsVariables answers old new result.1 ∧
            (result.2 = false → table.RemapsVariables answers old new table)) ∧
          (new.textIndex? Attribute.localVariableTableName ≠ some table.name →
            result.1 = table)) code.attributes tables := by
        refine (Outcome.forall₂_mem (Outcome.forall₂_of_mapM traversed)).imp ?_
        rintro table ⟨table', touched⟩ ⟨isTable, here⟩
        split at here
        · next isName =>
            refine ⟨length_onVariables here, name_onVariables here, fun isFirst => ?_,
              fun notNew => ?_⟩
            · exact remapsVariables_onVariables here (remaps code rest reads table isTable isFirst)
            · exact absurd (isName ▸ isNew) notNew
        · next isOther =>
            cases here
            exact ⟨Nat.le_refl _, rfl, fun isFirst => absurd (isOld _ isFirst) isOther,
              fun _ => rfl⟩
      split at ended
      · cases ended
        have fits := CodeAttribute.gives_read _ _ _ reads
        have fits' : CodeAttribute.Fits { code with attributes := tables.map (·.1) } :=
          ⟨fits.code, fits.exceptions, fits.attributes.shorten
            (List.forall₂_map_right_iff.2 (each.imp fun _ _ here => here.1))⟩
        refine ⟨code, rest, _, [], reads, CodeAttribute.read_toBytes fits', rfl,
          List.forall₂_map_right_iff.2 ?_⟩
        exact each.imp fun _ _ here =>
          ⟨here.2.1, fun isFirst => (here.2.2.1 isFirst).1, here.2.2.2⟩
      · next untouched =>
          cases ended
          refine Attribute.remapsCode_refl reads fun table isTable isFirst => ?_
          rcases Outcome.exists_of_mem_forall₂ each.flip isTable with ⟨result, isResult, here⟩
          have unchanged := List.any_eq_false.1 (Bool.eq_false_of_not_eq_true untouched) result
            isResult
          exact (here.2.2.1 isFirst).2 (Bool.eq_false_of_not_eq_true unchanged)

/-- The code of a method is replaced where it is named by the first entry. -/
theorem remapsAttributes_onMethodCode {codeName tableName : UInt16} {method method' : Member}
    (moved : indices.onMethodCode codeName tableName method = .ok method')
    (isNewCode : new.textIndex? Attribute.codeName = some codeName)
    (isOldCode : ∀ name, old.textIndex? Attribute.codeName = some name → name = codeName)
    (isNewTable : new.textIndex? Attribute.localVariableTableName = some tableName)
    (isOldTable : ∀ name, old.textIndex? Attribute.localVariableTableName = some name →
      name = tableName)
    (remaps : ∀ item ∈ method.attributes, old.textIndex? Attribute.codeName = some item.name →
      ∀ code rest, CodeAttribute.read item.info = .ok (code, rest) →
      ∀ table ∈ code.attributes,
        old.textIndex? Attribute.localVariableTableName = some table.name →
        ∀ rows rest, LocalVariable.readTable table.info = .ok (rows, rest) →
          ∀ row ∈ rows, ConstantPool.Remaps answers old new row.descriptor
            (indices.apply row.descriptor)) :
    method' = { method with attributes := method'.attributes } ∧
      List.Forall₂ (fun item item' => item'.name = item.name ∧
        (old.textIndex? Attribute.codeName = some item.name →
          item.RemapsCode answers old new item') ∧
        (new.textIndex? Attribute.codeName ≠ some item.name → item' = item))
        method.attributes method'.attributes := by
  rcases Outcome.bind_eq_ok_iff.1 moved with ⟨attributes, traversed, ended⟩
  cases ended
  refine ⟨rfl, (Outcome.forall₂_mem (Outcome.forall₂_of_mapM traversed)).imp ?_⟩
  rintro item item' ⟨isItem, here⟩
  split at here
  · next isName =>
      refine ⟨name_onCode here, fun isFirst => ?_, fun notNew => absurd (isName ▸ isNewCode) notNew⟩
      exact remapsCode_onCode here isNewTable isOldTable (remaps item isItem isFirst)
  · next isOther =>
      cases here
      exact ⟨rfl, fun isFirst => absurd (isOldCode _ isFirst) isOther, fun _ => rfl⟩

end IndexMap

end Code

/-! ## Classes -/

namespace ClassFile

variable {answers : String → Except OracleError Bool} {classFile new : ClassFile}
  {used : List UInt16} {indices : IndexMap} {last : ConstantPool}

theorem Replaces.text? {capable : String → Bool}
    (replaces : classFile.Replaces new capable used indices last) (index : UInt16) :
    new.pool.text? index = last.text? index := by
  rw [replaces.isNew]
  exact IndexMap.text?_onPool index

theorem Replaces.textIndex? {capable : String → Bool}
    (replaces : classFile.Replaces new capable used indices last) (name : String) :
    new.pool.textIndex? name = last.textIndex? name := by
  rw [replaces.isNew]
  exact IndexMap.textIndex?_onPool name

section Remapping

variable (replaces : classFile.Replaces new (capability answers) used indices last)
  (asked : ∀ index ∈ used, ∀ text, classFile.pool.text? index = some text →
    flattening answers text = .ok (flattened? (capability answers) text))
  (few : last.entries.size ≤ 65535)
include replaces asked few

/-- A use of a descriptor is pointed to what flattening makes of it. -/
theorem Replaces.remaps {index : UInt16} (uses : classFile.UsesDescriptor index) :
    ConstantPool.Remaps answers classFile.pool new.pool index (indices.apply index) := by
  have isUsed := (mem_descriptorIndices_iff replaces.collected).2 uses
  rcases apply_cases_of_enters replaces.enters few isUsed with
    ⟨same, unchanged⟩ | ⟨text, changed, isText, flat, entered⟩
  · rw [same]
    refine .kept fun text isText => ⟨?_, ?_⟩
    · rw [asked index isUsed text isText, unchanged text isText]
    · rw [replaces.text?]
      exact replaces.grows.text? isText
  · refine .moved isText ?_ ((replaces.text? _).trans entered)
    rw [asked index isUsed text isText, flat]

/-- The descriptors of local variables are uses where their tables are found. -/
theorem Replaces.remaps_row {method : Member} (isMethod : method ∈ classFile.methods)
    {item : Attribute} (isItem : item ∈ method.attributes)
    (isFirst : classFile.pool.textIndex? Attribute.codeName = some item.name)
    (code : CodeAttribute) (rest : Bytes) (reads : CodeAttribute.read item.info = .ok (code, rest))
    (table : Attribute) (isTable : table ∈ code.attributes)
    (isFirstTable : classFile.pool.textIndex? Attribute.localVariableTableName = some table.name)
    (rows : List LocalVariable) (rest' : Bytes)
    (lists : LocalVariable.readTable table.info = .ok (rows, rest')) (row : LocalVariable)
    (isRow : row ∈ rows) :
    ConstantPool.Remaps answers classFile.pool new.pool row.descriptor
      (indices.apply row.descriptor) := by
  have fewOld := Nat.le_trans replaces.grows.size_le few
  refine replaces.remaps asked few (.localVariable isMethod isItem ?_ reads isTable ?_ lists isRow)
  · exact beq_iff_eq.2 (ConstantPool.text?_of_textIndex? fewOld isFirst)
  · exact beq_iff_eq.2 (ConstantPool.text?_of_textIndex? fewOld isFirstTable)

theorem Replaces.remapsMethod_of_kept
    (unnamed : last.textIndex? Attribute.codeName = none ∨
      last.textIndex? Attribute.localVariableTableName = none ∨
      ∀ index, indices.apply index = index)
    {method : Member} (isMethod : method ∈ classFile.methods) :
    method.RemapsMethod answers classFile.pool new.pool (indices.onMember method) := by
  have fewOld := Nat.le_trans replaces.grows.size_le few
  refine ⟨rfl, replaces.remaps asked few (.member (List.mem_append_right _ isMethod)), ?_⟩
  refine List.forall₂_same.2 fun item isItem => ⟨rfl, fun isFirst => ?_, fun _ => rfl⟩
  have isCode := beq_iff_eq.2 (ConstantPool.text?_of_textIndex? fewOld isFirst)
  rcases exists_read_of_collected replaces.collected isMethod isItem isCode with
    ⟨code, rest, reads, tables⟩
  refine Attribute.remapsCode_refl reads fun table isTable isFirstTable => ?_
  have isVariables := beq_iff_eq.2 (ConstantPool.text?_of_textIndex? fewOld isFirstTable)
  rcases tables table isTable isVariables with ⟨rows, rest', lists⟩
  refine Attribute.remapsVariables_refl lists fun row isRow => ?_
  have remaps := replaces.remaps_row asked few isMethod isItem isFirst code rest reads table isTable
    isFirstTable rows rest' lists row isRow
  rcases unnamed with noCode | noTable | same
  · cases noCode.symm.trans (replaces.grows.textIndex? isFirst)
  · cases noTable.symm.trans (replaces.grows.textIndex? isFirstTable)
  · rwa [same] at remaps

theorem Replaces.remapsMethods :
    List.Forall₂ (Member.RemapsMethod answers classFile.pool new.pool) classFile.methods
      new.methods := by
  rcases replaces.methods with ⟨codeName, tableName, isCode, isTable, each⟩ | ⟨unnamed, isMapped⟩
  · refine (Outcome.forall₂_mem each).imp ?_
    rintro method method' ⟨isMethod, moved⟩
    have found {name : String} {index : UInt16} (isName : last.textIndex? name = some index)
        (other : UInt16) (isOld : classFile.pool.textIndex? name = some other) : other = index :=
      Option.some.inj ((replaces.grows.textIndex? isOld).symm.trans isName)
    rcases IndexMap.remapsAttributes_onMethodCode moved ((replaces.textIndex? _).trans isCode)
      (found isCode) ((replaces.textIndex? _).trans isTable) (found isTable)
      (fun item isItem isFirst => replaces.remaps_row asked few isMethod isItem isFirst) with
      ⟨isMoved, attributes⟩
    refine ⟨?_, ?_, attributes⟩
    · rw [isMoved]
      rfl
    · rw [isMoved]
      exact replaces.remaps asked few (.member (List.mem_append_right _ isMethod))
  · rw [isMapped]
    refine List.forall₂_map_right_iff.2 (List.forall₂_same.2 fun method isMethod => ?_)
    exact replaces.remapsMethod_of_kept asked few unnamed isMethod

theorem Replaces.remapsConstant {constant : Constant}
    (found : constant ∈ classFile.pool.entries) :
    ConstantPool.RemapsConstant answers classFile.pool new.pool constant
      (indices.onConstant last constant) := by
  cases constant with
  | nameAndType name descriptor =>
      exact .nameAndType (replaces.remaps asked few (.constant found rfl))
  | methodType descriptor => exact .methodType (replaces.remaps asked few (.constant found rfl))
  | classRef name =>
      rw [IndexMap.onConstant]
      cases isText : classFile.pool.text? name with
      | none =>
          have usesNone : classFile.pool.descriptorIndex? (.classRef name) = none := by
            simp [ConstantPool.descriptorIndex?, ConstantPool.namesArrayClass, isText]
          rw [apply_eq_of_enters replaces.enters isText, ite_self]
          exact .kept usesNone
      | some text =>
          have isArray := ConstantPool.namesArrayClass_classRef isText
          have isArray' := ConstantPool.namesArrayClass_classRef (replaces.grows.text? isText)
          rw [isArray', ← isArray]
          split
          · next array =>
              exact .arrayClass array (replaces.remaps asked few (.constant found (if_pos array)))
          · next plain => exact .kept (if_neg plain)
  | _ => exact .kept rfl

theorem Replaces.remapped : classFile.Remapped answers new := by
  refine ⟨?_, ?_, replaces.remapsMethods asked few, ?_⟩
  · rw [replaces.isNew]
  · have isFields : new.fields = classFile.fields.map indices.onMember := by
      rw [replaces.isNew]
    rw [isFields]
    refine List.forall₂_map_right_iff.2 (List.forall₂_same.2 fun field isField => ⟨rfl, ?_⟩)
    exact replaces.remaps asked few (.member (List.mem_append_left _ isField))
  · intro index constant found
    refine ⟨indices.onConstant last constant, ?_,
      replaces.remapsConstant asked few (ConstantPool.mem_of_get? found)⟩
    rw [replaces.isNew]
    exact (IndexMap.get?_onPool index).trans
      (congrArg (Option.map _) (replaces.grows.get? found))

end Remapping

/-- Every use of a descriptor is remapped. -/
theorem flattenDescriptors?_remapped {described : Option ClassFile}
    (flattened : classFile.flattenDescriptors?.eval answers = .ok described)
    (few : (described.getD classFile).pool.entries.size ≤ 65535) :
    classFile.Remapped answers (described.getD classFile) := by
  rcases flattenDescriptors?_replaces flattened with ⟨used, indices, last, replaces⟩
  refine replaces.remapped (fun index isUsed text isText => ?_) ?_
  · exact eval_of_flattenDescriptors? flattened replaces.collected isUsed isText
  · rw [replaces.isNew] at few
    rwa [IndexMap.onPool, Array.size_map] at few

/-- A class changes exactly if one of the texts it uses as descriptors does. -/
theorem isSome_flattenDescriptors?_iff {described : Option ClassFile}
    (flattened : classFile.flattenDescriptors?.eval answers = .ok described) :
    described.isSome = true ↔ ∃ index text changed, classFile.UsesDescriptor index ∧
      classFile.pool.text? index = some text ∧
      flattening answers text = .ok (some changed) ∧ changed ≠ text := by
  rcases flattenDescriptors?_spec flattened with ⟨used, collected, ended⟩
  have asked {index : UInt16} {text : String} (uses : classFile.UsesDescriptor index)
      (isText : classFile.pool.text? index = some text) :
      flattening answers text = .ok (flattened? (capability answers) text) :=
    eval_of_flattenDescriptors? flattened collected ((mem_descriptorIndices_iff collected).2 uses)
      isText
  constructor
  · intro isThere
    rcases ended with ⟨_, rfl⟩ | ⟨something, _⟩
    · cases isThere
    · rcases List.exists_mem_of_ne_nil _ something with ⟨⟨index, changed⟩, isChange⟩
      rcases mem_changes.1 isChange with ⟨isUsed, text, isText, flat⟩
      have uses := (mem_descriptorIndices_iff collected).1 isUsed
      refine ⟨index, text, changed, uses, isText, flat ▸ asked uses isText, ?_⟩
      rintro rfl
      exact Nat.lt_irrefl _ (length_lt_of_flattened? flat)
  · rintro ⟨index, text, changed, uses, isText, remapped, _⟩
    rcases ended with ⟨nothing, _⟩ | ⟨_, replaced, _, rfl⟩
    · rw [asked uses isText, Except.ok.injEq] at remapped
      have isChange := mem_changes.2
        ⟨(mem_descriptorIndices_iff collected).2 uses, text, isText, remapped⟩
      rw [nothing] at isChange
      cases isChange
    · rfl

/-- Flattening the descriptors of a class reaches every use of one: it resolves to
what flattening makes of its text, no text changes, and there is a new class
exactly if one of the texts in use changes. -/
theorem flattenDescriptors?_covers (find : ClassFinder) (oracle : Oracle) (classFile : ClassFile)
    {described : Option ClassFile}
    (flattened : (classFile.flattenDescriptors?.run find oracle).result = .ok described)
    (few : (described.getD classFile).pool.entries.size ≤ 65535) :
    classFile.Remapped (oracle.answer find) (described.getD classFile) ∧
      (described.isSome = true ↔ ∃ index text changed, classFile.UsesDescriptor index ∧
        classFile.pool.text? index = some text ∧
        flattening (oracle.answer find) text = .ok (some changed) ∧ changed ≠ text) := by
  rw [Inquiry.run_result] at flattened
  exact ⟨flattenDescriptors?_remapped flattened few, isSome_flattenDescriptors?_iff flattened⟩

/-- A class whose constants, members and local variables use descriptors of arrays
of `V`. -/
def arrayUser : ClassFile where
  minorVersion := 0
  majorVersion := 52
  pool := {
    size := 9
    entries := #[.utf8 (Bytes.ofText "[LV;"), .classRef 1, .utf8 (Bytes.ofText "x"),
      .nameAndType 3 1, .utf8 (Bytes.ofText "([[LV;)V"), .methodType 5,
      .utf8 (Bytes.ofText Attribute.codeName),
      .utf8 (Bytes.ofText Attribute.localVariableTableName)] }
  access := 0
  thisClass := 0
  superClass := 0
  interfaces := []
  fields := [⟨0, 3, 1, []⟩]
  methods := [⟨8, 3, 5, [⟨7, CodeAttribute.toBytes {
    maxStack := 0
    maxLocals := 1
    code := [0xb1]
    exceptions := []
    attributes := [⟨8, LocalVariable.tableBytes [⟨0, 1, 3, 1, 0⟩]⟩] }⟩]⟩]
  attributes := []

/-- The uses in `arrayUser` are remapped, if `V` is value-capable. -/
theorem flattenDescriptors?_covers_arrayUser : ∃ described,
    (arrayUser.flattenDescriptors?.run (fun _ => .absent) (.knowing "V")).result =
      .ok (some described) ∧
    described.pool.entries.size ≤ 65535 ∧
    arrayUser.Remapped ((Oracle.knowing "V").answer fun _ => .absent) described ∧
    ∃ index text changed, arrayUser.UsesDescriptor index ∧
      arrayUser.pool.text? index = some text ∧
      flattening ((Oracle.knowing "V").answer fun _ => .absent) text = .ok (some changed) ∧
      changed ≠ text := by
  have flattened : ∃ result,
      (arrayUser.flattenDescriptors?.run (fun _ => .absent) (.knowing "V")).result = .ok result ∧
        result.any (fun described => decide (described.pool.entries.size ≤ 65535)) = true := by
    apply Outcome.exists_of_any
    rw [Inquiry.run_result, Oracle.answer_knowing]
    decide +kernel
  rcases flattened with ⟨result, flattened, few⟩
  cases result with
  | none => cases few
  | some described =>
      have few := of_decide_eq_true few
      rcases flattenDescriptors?_covers _ _ _ flattened few with ⟨remapped, changes⟩
      exact ⟨described, flattened, few, remapped, changes.1 rfl⟩

end ClassFile

end ValueForm
