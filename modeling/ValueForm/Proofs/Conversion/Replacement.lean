import ValueForm.Proofs.ClassFile.DebugTable
import ValueForm.Proofs.ClassFile.Interning
import ValueForm.Proofs.ClassFile.RoundTrip
import ValueForm.Proofs.Conversion.Descriptors
import ValueForm.Proofs.Outcome

/-!
# Descriptors replaced

What a class refers to after its descriptors have been flattened. A descriptor
is named in its flattened form, and so is an array class; every other class and
every name stay what they were. Code stays as it is: only its tables of local
variables are written anew, and they do not get longer.
-/

namespace ValueForm

/-- A descriptor in its flattened form, or as it is if it has none. -/
def flatDescriptor (capable : String → Bool) (descriptor : String) : String :=
  (flattened? capable descriptor).getD descriptor

/-- The name of a class constant where descriptors are flattened: that of an
array class is a descriptor. -/
def flatClassName (capable : String → Bool) (name : String) : String :=
  if name.toList.head? = some '[' then flatDescriptor capable name else name

@[simp]
theorem flatClassName_valueClassName (capable : String → Bool) (className : String) :
    flatClassName capable (valueClassName className) = valueClassName className := by
  refine if_neg ?_
  simp [valueClassName]

/-! ## New texts -/

/-- Every change has an entry with its text, and there is no other. -/
structure IndexMap.Enters (indices : IndexMap) (pool : ConstantPool)
    (changes : List (UInt16 × String)) : Prop where
  mapped : ∀ old text, (old, text) ∈ changes → ∃ new, indices[old]? = some new
  text : ∀ old new : UInt16, indices[old]? = some new → ∃ text, (old, text) ∈ changes ∧
    (pool.entries.size ≤ 65535 → pool.text? new = some text)

theorem IndexMap.Enters.insert {indices : IndexMap} {pool : ConstantPool}
    {changes : List (UInt16 × String)} (enters : indices.Enters pool changes) (old : UInt16)
    (text : String) :
    IndexMap.Enters (Std.TreeMap.insert indices old (pool.internText text).1)
      (pool.internText text).2 (changes ++ [(old, text)]) := by
  rcases pool.internText_spec text with ⟨grows, interned⟩
  constructor
  · intro other otherText isChange
    rw [Std.TreeMap.getElem?_insert]
    split
    · exact ⟨_, rfl⟩
    · next different =>
        rcases List.mem_append.1 isChange with isChange | isLast
        · exact enters.mapped other otherText isChange
        · cases List.mem_singleton.1 isLast
          simp at different
  · intro other new found
    rw [Std.TreeMap.getElem?_insert] at found
    split at found
    · next same =>
        cases found
        cases Std.LawfulEqOrd.eq_of_compare same
        exact ⟨text, List.mem_append_right _ (List.mem_singleton_self _), interned⟩
    · rcases enters.text other new found with ⟨otherText, isChange, isText⟩
      refine ⟨otherText, List.mem_append_left _ isChange, fun few => ?_⟩
      exact grows.text? (isText (Nat.le_trans grows.size_le few))

namespace ClassFile

theorem foldl_internText_spec (changes done : List (UInt16 × String)) (indices : IndexMap)
    (pool : ConstantPool) (enters : indices.Enters pool done) :
    let entered := changes.foldl
      (fun (indices, pool) (old, text) =>
        let (new, pool) := ConstantPool.internText pool text
        (Std.TreeMap.insert indices old new, pool)) (indices, pool)
    pool.Interns entered.2 ∧ IndexMap.Enters entered.1 entered.2 (done ++ changes) := by
  induction changes generalizing done indices pool with
  | nil => exact ⟨.refl, (List.append_nil done).symm ▸ enters⟩
  | cons change changes ih =>
      rcases change with ⟨old, text⟩
      have next := ih _ _ _ (enters.insert old text)
      rw [List.append_assoc] at next
      exact ⟨((ConstantPool.finds_internText text).interns pool).trans next.1, next.2⟩

/-- Entering new texts interns them and gives every changed descriptor an entry
with its new text. -/
theorem internTexts_spec (pool : ConstantPool) (changes : List (UInt16 × String)) :
    pool.Interns (internTexts pool changes).2 ∧
      (internTexts pool changes).1.Enters (internTexts pool changes).2 changes := by
  have empty : IndexMap.Enters {} pool [] := by
    constructor
    · intro old text isChange
      cases isChange
    · intro old new found
      simp at found
  exact foldl_internText_spec changes [] {} pool empty

theorem mem_changes {capable : String → Bool} {pool : ConstantPool} {used : List UInt16}
    {old : UInt16} {text : String} :
    (old, text) ∈ changes capable pool used ↔ old ∈ used ∧
      ∃ before, pool.text? old = some before ∧ flattened? capable before = some text := by
  simp only [changes, List.mem_filterMap, Option.bind_eq_bind, Option.bind_eq_some_iff,
    Option.pure_def, Option.some.injEq, Prod.mk.injEq]
  constructor
  · rintro ⟨index, isUsed, before, isBefore, after, isAfter, rfl, rfl⟩
    exact ⟨isUsed, before, isBefore, isAfter⟩
  · rintro ⟨isUsed, before, isBefore, isAfter⟩
    exact ⟨old, isUsed, before, isBefore, text, isAfter, rfl, rfl⟩

end ClassFile

/-! ## Constants -/

theorem ConstantPool.mem_of_get? {pool : ConstantPool} {index : UInt16} {constant : Constant}
    (found : pool.get? index = some constant) : constant ∈ pool.entries := by
  unfold get? at found
  split at found
  · cases found
  · exact Array.mem_of_getElem? found

theorem ConstantPool.namesArrayClass_classRef {pool : ConstantPool} {index : UInt16}
    {name : String} (named : pool.text? index = some name) :
    pool.namesArrayClass (.classRef index) = (name.toList.head? == some '[') := by
  rw [namesArrayClass, named]

namespace IndexMap

/-- A pool with the descriptors of its constants replaced. -/
def onPool (indices : IndexMap) (pool : ConstantPool) : ConstantPool :=
  { pool with entries := pool.entries.map (indices.onConstant pool) }

variable {indices : IndexMap} {capable : String → Bool} {pool last : ConstantPool}

@[simp]
theorem get?_onPool (index : UInt16) :
    (indices.onPool pool).get? index = (pool.get? index).map (indices.onConstant pool) := by
  unfold ConstantPool.get?
  split
  · rfl
  · exact Array.getElem?_map

/-- Texts stay. -/
@[simp]
theorem text?_onPool (index : UInt16) : (indices.onPool pool).text? index = pool.text? index := by
  rw [ConstantPool.text?, ConstantPool.text?, get?_onPool]
  cases pool.get? index with
  | none => rfl
  | some constant =>
      cases constant with
      | classRef name =>
          rw [Option.map_some, onConstant]
          cases pool.namesArrayClass (.classRef name) <;> rfl
      | _ => rfl

@[simp]
theorem isWide_onConstant (constant : Constant) :
    (indices.onConstant pool constant).isWide = constant.isWide := by
  cases constant with
  | classRef name =>
      rw [onConstant]
      split <;> rfl
  | _ => rfl

theorem onConstant_eq_reserved {constant : Constant}
    (isReserved : indices.onConstant pool constant = .reserved) : constant = .reserved := by
  cases constant with
  | classRef name =>
      rw [onConstant] at isReserved
      split at isReserved <;> cases isReserved
  | reserved => rfl
  | _ => cases isReserved

theorem slots_onConstant (constant : Constant) :
    constant.slots.map (indices.onConstant pool) = (indices.onConstant pool constant).slots := by
  rw [Constant.slots, Constant.slots, isWide_onConstant]
  split <;> rfl

theorem slotted_onPool (slotted : pool.Slotted) : (indices.onPool pool).Slotted := by
  rcases slotted with ⟨constants, isUsed, isEntries⟩
  refine ⟨constants.map (indices.onConstant pool), ?_, ?_⟩
  · intro found
    rcases List.mem_map.1 found with ⟨constant, isConstant, isReserved⟩
    exact isUsed (onConstant_eq_reserved isReserved ▸ isConstant)
  · rw [onPool, Array.toList_map, isEntries, List.map_flatMap, List.flatMap_map]
    simp only [slots_onConstant]

/-- Names are found where they were. -/
@[simp]
theorem textIndex?_onPool (name : String) :
    (indices.onPool pool).textIndex? name = pool.textIndex? name := by
  have same (constant : Constant) :
      (indices.onConstant pool constant == .utf8 (Bytes.ofText name)) =
        (constant == .utf8 (Bytes.ofText name)) := by
    cases constant with
    | classRef index =>
        rw [onConstant]
        split <;> rfl
    | _ => rfl
  simp only [ConstantPool.textIndex?, ConstantPool.indexOf?, ConstantPool.find?, onPool,
    Array.findIdx?_map]
  simp [Function.comp_def, same]

@[simp]
theorem apply_empty (index : UInt16) : apply {} index = index := by
  simp [apply]

@[simp]
theorem onMember_empty (member : Member) : onMember {} member = member := by
  rw [onMember, apply_empty]

@[simp]
theorem onPool_empty (pool : ConstantPool) : onPool {} pool = pool := by
  have same : onConstant {} pool = id := by
    funext constant
    cases constant <;> simp [onConstant, apply_empty]
  rw [onPool, same, Array.map_id]

/-- Descriptors of the constants of a pool are replaced by entries of a larger
one that have their flattened forms. -/
structure Flattens (indices : IndexMap) (capable : String → Bool) (pool last : ConstantPool) :
    Prop where
  grows : pool.Grows last
  text : ∀ constant ∈ pool.entries, ∀ index, pool.descriptorIndex? constant = some index →
    ∀ text, pool.text? index = some text →
      last.text? (indices.apply index) = some (flatDescriptor capable text)

namespace Flattens

variable (flattens : indices.Flattens capable pool last)
include flattens

theorem className? {index : UInt16} {name : String} (named : pool.className? index = some name) :
    (indices.onPool last).className? index = some (flatClassName capable name) := by
  unfold ConstantPool.className? at named
  split at named
  · next nameIndex isClass =>
      have isArray := ConstantPool.namesArrayClass_classRef named
      have isArray' := ConstantPool.namesArrayClass_classRef (flattens.grows.text? named)
      rw [ConstantPool.className?, get?_onPool, flattens.grows.get? isClass, Option.map_some,
        onConstant, isArray', flatClassName]
      by_cases startsArray : name.toList.head? = some '['
      · rw [if_pos (beq_iff_eq.2 startsArray), if_pos startsArray]
        dsimp only
        rw [text?_onPool]
        refine flattens.text _ (ConstantPool.mem_of_get? isClass) _ ?_ name named
        rw [ConstantPool.descriptorIndex?, isArray, if_pos (beq_iff_eq.2 startsArray)]
      · rw [if_neg (by simpa using startsArray), if_neg startsArray]
        dsimp only
        rw [text?_onPool]
        exact flattens.grows.text? named
  · cases named

theorem nameAndType? {index : UInt16} {name descriptor : String}
    (named : pool.nameAndType? index = some (name, descriptor)) :
    (indices.onPool last).nameAndType? index =
      some (name, flatDescriptor capable descriptor) := by
  unfold ConstantPool.nameAndType? at named
  split at named
  · next nameIndex descriptorIndex isPair =>
      simp only [Option.bind_eq_bind, Option.bind_eq_some_iff] at named
      rcases named with ⟨_, isName, _, isDescriptor, ⟨⟩⟩
      have described := flattens.text _ (ConstantPool.mem_of_get? isPair) _ rfl _ isDescriptor
      rw [ConstantPool.nameAndType?, get?_onPool, flattens.grows.get? isPair, Option.map_some,
        onConstant]
      simp [text?_onPool, flattens.grows.text? isName, described]
  · cases named

/-- The member that a constant names is one of the class of the same name, under
the same name and with its descriptor flattened. -/
theorem member? {index : UInt16} {member : MemberRef}
    (named : pool.member? index = some member) :
    (indices.onPool last).member? index = some ⟨flatClassName capable member.owner, member.name,
      flatDescriptor capable member.descriptor⟩ := by
  have ofParts {owner nameAndType : UInt16}
      (named : pool.memberOf? owner nameAndType = some member) :
      (indices.onPool last).memberOf? owner nameAndType = some
        ⟨flatClassName capable member.owner, member.name,
          flatDescriptor capable member.descriptor⟩ := by
    simp only [ConstantPool.memberOf?, Option.bind_eq_bind, Option.bind_eq_some_iff] at named
    rcases named with ⟨ownerName, isOwner, ⟨name, descriptor⟩, isPair, ⟨⟩⟩
    simp [ConstantPool.memberOf?, flattens.className? isOwner, flattens.nameAndType? isPair]
  rw [ConstantPool.member?, get?_onPool]
  unfold ConstantPool.member? at named
  split at named
  · next isField =>
      rw [flattens.grows.get? isField]
      exact ofParts named
  · next isMethod =>
      rw [flattens.grows.get? isMethod]
      exact ofParts named
  · next isMethod =>
      rw [flattens.grows.get? isMethod]
      exact ofParts named
  · cases named

end Flattens

end IndexMap

/-! ## Code -/

/-- Attributes that are not longer than others fit where those do. -/
theorem AttributesFit.shorten {olds news : List Attribute} (fits : AttributesFit olds)
    (each : List.Forall₂ (fun old new : Attribute => new.info.length ≤ old.info.length) olds news) :
    AttributesFit news := by
  constructor
  · rw [← each.length_eq]
    exact fits.count
  · intro item found
    rcases Outcome.exists_of_mem_forall₂ each found with ⟨before, isBefore, shorter⟩
    exact Nat.lt_of_le_of_lt shorter (fits.each before isBefore)

/-- An attribute is kept, or it is code whose attributes are replaced by others
that are not longer. -/
inductive Attribute.Redescribes : Attribute → Attribute → Prop
  | same (item : Attribute) : Redescribes item item
  | code {item : Attribute} {code : CodeAttribute} {rest : Bytes} {tables : List Attribute}
      (reads : CodeAttribute.read item.info = .ok (code, rest))
      (each : List.Forall₂ (fun old new : Attribute => new.info.length ≤ old.info.length)
        code.attributes tables) :
      Redescribes item
        { item with info := CodeAttribute.toBytes { code with attributes := tables } }

namespace Attribute.Redescribes

variable {old new : Attribute}

/-- No attribute gets longer. -/
theorem length_le (redescribes : old.Redescribes new) : new.info.length ≤ old.info.length := by
  cases redescribes with
  | same => exact Nat.le_refl _
  | @code code rest tables reads each =>
      have shorter :
          (tables.flatMap toBytes).length ≤ (code.attributes.flatMap toBytes).length := by
        clear reads
        generalize code.attributes = attributes at each
        induction each with
        | nil => exact Nat.le_refl _
        | @cons old new _ _ here _ ih =>
            rw [List.flatMap_cons, List.flatMap_cons, List.length_append, List.length_append,
              length_toBytes, length_toBytes]
            omega
      have length := congrArg List.length (CodeAttribute.exact_read _ _ _ reads)
      rw [List.length_append] at length
      rw [length]
      simp only [CodeAttribute.toBytes, Bytes.counted16, Bytes.count16, List.length_append,
        Bytes.length_ofUInt16, Bytes.length_ofUInt32]
      omega

/-- Code that was written and fits is still read back as code. -/
theorem exists_read (redescribes : old.Redescribes new) {code : CodeAttribute} (fits : code.Fits)
    (written : old.info = code.toBytes) :
    ∃ code', CodeAttribute.read new.info = .ok (code', []) ∧ code'.code = code.code := by
  cases redescribes with
  | same =>
      rw [written]
      exact ⟨code, CodeAttribute.read_toBytes fits, rfl⟩
  | @code body rest tables reads each =>
      rw [written, CodeAttribute.read_toBytes fits] at reads
      cases reads
      exact ⟨{ code with attributes := tables }, CodeAttribute.read_toBytes
        ⟨fits.code, fits.exceptions, fits.attributes.shorten each⟩, rfl⟩

end Attribute.Redescribes

theorem IndexMap.length_onVariables {indices : IndexMap} {item moved : Attribute} {touched : Bool}
    (moves : indices.onVariables item = .ok (moved, touched)) :
    moved.info.length ≤ item.info.length := by
  unfold onVariables at moves
  split at moves
  · cases moves
  · next table rest reads =>
      cases moves
      have isInfo := Reader.exact_counted16 LocalVariable.exact_read _ _ _ reads
      have length := congrArg List.length isInfo
      have isTable := LocalVariable.length_tableBytes table
      rw [List.length_append] at length
      dsimp only
      rw [LocalVariable.length_tableBytes, List.length_map, length]
      exact Nat.le_trans (Nat.le_of_eq isTable.symm) (Nat.le_add_right _ _)

theorem IndexMap.redescribes_onCode {indices : IndexMap} {tableName : UInt16}
    {item moved : Attribute} (moves : indices.onCode tableName item = .ok moved) :
    item.Redescribes moved := by
  unfold onCode at moves
  split at moves
  · cases moves
  · next code rest reads =>
      rcases Outcome.bind_eq_ok_iff.1 moves with ⟨tables, traversed, ended⟩
      have each : List.Forall₂ (fun old new : Attribute => new.info.length ≤ old.info.length)
          code.attributes (tables.map (·.1)) := by
        rw [List.forall₂_map_right_iff]
        refine (Outcome.forall₂_of_mapM traversed).imp fun table result here => ?_
        split at here
        · exact length_onVariables here
        · cases here
          exact Nat.le_refl _
      split at ended
      · cases ended
        exact .code reads each
      · cases ended
        exact .same item

/-- The attributes of a member are kept or redescribed. -/
def Member.Redescribes (old new : Member) : Prop :=
  List.Forall₂ Attribute.Redescribes old.attributes new.attributes

theorem Member.redescribes_of_eq {old new : Member} (same : new.attributes = old.attributes) :
    old.Redescribes new := by
  rw [Redescribes, same]
  exact List.forall₂_same.2 fun item _ => .same item

theorem IndexMap.redescribes_onMethodCode {indices : IndexMap} {codeName tableName : UInt16}
    {method moved : Member} (moves : indices.onMethodCode codeName tableName method = .ok moved) :
    method.Redescribes moved := by
  rcases Outcome.bind_eq_ok_iff.1 moves with ⟨attributes, traversed, ended⟩
  cases ended
  refine (Outcome.forall₂_of_mapM traversed).imp fun item result here => ?_
  split at here
  · exact redescribes_onCode here
  · cases here
    exact .same item

theorem Member.Redescribes.fits {old new : Member} (redescribes : old.Redescribes new)
    (fits : AttributesFit old.attributes) : AttributesFit new.attributes :=
  fits.shorten (List.Forall₂.imp (fun _ _ here => here.length_le) redescribes)

/-- A class in which, beside constants, only descriptors of members and code are
redescribed. -/
structure ClassFile.Redescribes (old new : ClassFile) : Prop where
  interfaces : new.interfaces = old.interfaces
  fields : List.Forall₂ Member.Redescribes old.fields new.fields
  methods : List.Forall₂ Member.Redescribes old.methods new.methods
  attributes : new.attributes = old.attributes

/-! ## Classes -/

namespace ClassFile

theorem Redescribes.refl (classFile : ClassFile) : classFile.Redescribes classFile where
  interfaces := rfl
  fields := List.forall₂_same.2 fun _ _ => Member.redescribes_of_eq rfl
  methods := List.forall₂_same.2 fun _ _ => Member.redescribes_of_eq rfl
  attributes := rfl

/-- A class whose descriptors were replaced. Code is looked at only if both the
name of code and the name of its tables are in the pool. -/
theorem replaceDescriptors_cases {classFile replaced : ClassFile}
    {changes : List (UInt16 × String)}
    (replaces : classFile.replaceDescriptors changes = .ok replaced) :
    ∃ indices last, (indices, last) = internTexts classFile.pool changes ∧
      replaced = { classFile with
        pool := IndexMap.onPool indices last, fields := classFile.fields.map indices.onMember,
        methods := replaced.methods } ∧
      ((∃ codeName tableName, last.textIndex? Attribute.codeName = some codeName ∧
          last.textIndex? Attribute.localVariableTableName = some tableName ∧
          List.Forall₂ (fun method method' =>
            indices.onMethodCode codeName tableName (indices.onMember method) = .ok method')
            classFile.methods replaced.methods) ∨
        (last.textIndex? Attribute.codeName = none ∨
          last.textIndex? Attribute.localVariableTableName = none) ∧
          replaced.methods = classFile.methods.map indices.onMember) := by
  unfold replaceDescriptors at replaces
  generalize internTexts classFile.pool changes = entered at replaces ⊢
  rcases entered with ⟨indices, last⟩
  refine ⟨indices, last, rfl, ?_⟩
  dsimp only at replaces
  split at replaces
  · next codeName tableName isCode isTable =>
      rcases Outcome.bind_eq_ok_iff.1 replaces with ⟨methods, moved, ended⟩
      cases ended
      refine ⟨rfl, .inl ⟨codeName, tableName, isCode, isTable, ?_⟩⟩
      exact List.forall₂_map_left_iff.1 (Outcome.forall₂_of_mapM moved)
  · next missing =>
      cases replaces
      refine ⟨rfl, .inr ⟨?_, rfl⟩⟩
      by_contra both
      rcases not_or.1 both with ⟨hasCode, hasTable⟩
      rcases Option.ne_none_iff_exists'.1 hasCode with ⟨codeName, isCode⟩
      rcases Option.ne_none_iff_exists'.1 hasTable with ⟨tableName, isTable⟩
      exact missing codeName tableName isCode isTable

theorem Redescribes.partsFit {old new : ClassFile} (redescribes : old.Redescribes new)
    (fits : old.PartsFit) : new.PartsFit where
  interfaces := by
    rw [redescribes.interfaces]
    exact fits.interfaces
  fieldCount := by
    rw [← redescribes.fields.length_eq]
    exact fits.fieldCount
  fields := by
    intro field found
    rcases Outcome.exists_of_mem_forall₂ redescribes.fields found with ⟨old, isOld, here⟩
    exact here.fits (fits.fields old isOld)
  methodCount := by
    rw [← redescribes.methods.length_eq]
    exact fits.methodCount
  methods := by
    intro method found
    rcases Outcome.exists_of_mem_forall₂ redescribes.methods found with ⟨old, isOld, here⟩
    exact here.fits (fits.methods old isOld)
  attributes := by
    rw [redescribes.attributes]
    exact fits.attributes

/-- An index without a text is no descriptor that changes. -/
theorem apply_eq_of_enters {indices : IndexMap} {capable : String → Bool}
    {pool last : ConstantPool} {used : List UInt16}
    (enters : indices.Enters last (changes capable pool used)) {index : UInt16}
    (noText : pool.text? index = none) : indices.apply index = index := by
  rw [IndexMap.apply]
  cases found : indices[index]? with
  | none => rfl
  | some new =>
      rcases enters.text index new found with ⟨_, isChange, _⟩
      rcases mem_changes.1 isChange with ⟨_, text, isText, _⟩
      cases noText.symm.trans isText

/-- A descriptor that is used keeps its index unless its text changes; then the
new one has the new text. -/
theorem apply_cases_of_enters {capable : String → Bool} {pool last : ConstantPool}
    {used : List UInt16} {indices : IndexMap}
    (enters : indices.Enters last (changes capable pool used))
    (few : last.entries.size ≤ 65535) {index : UInt16} (isUsed : index ∈ used) :
    (indices.apply index = index ∧
      ∀ text, pool.text? index = some text → flattened? capable text = none) ∨
    ∃ text changed, pool.text? index = some text ∧ flattened? capable text = some changed ∧
      last.text? (indices.apply index) = some changed := by
  rw [IndexMap.apply]
  cases found : indices[index]? with
  | none =>
      refine .inl ⟨rfl, fun text isText => ?_⟩
      by_contra changes
      rcases Option.ne_none_iff_exists'.1 changes with ⟨changed, flat⟩
      rcases enters.mapped index changed (mem_changes.2 ⟨isUsed, text, isText, flat⟩) with
        ⟨new, isNew⟩
      cases found.symm.trans isNew
  | some new =>
      rcases enters.text index new found with ⟨changed, isChange, entered⟩
      rcases mem_changes.1 isChange with ⟨_, text, isText, flat⟩
      exact .inr ⟨text, changed, isText, flat, entered few⟩

/-- What the descriptors used by constants are replaced by. -/
theorem flattens_of_enters {capable : String → Bool} {classFile : ClassFile} {used : List UInt16}
    (collected : classFile.descriptorIndices = .ok used) {indices : IndexMap}
    {last : ConstantPool} (grows : classFile.pool.Grows last)
    (enters : indices.Enters last (changes capable classFile.pool used))
    (few : last.entries.size ≤ 65535) : indices.Flattens capable classFile.pool last := by
  refine ⟨grows, ?_⟩
  intro constant found index uses text isText
  rw [flatDescriptor]
  have isUsed := (mem_descriptorIndices_iff collected).2 (.constant found uses)
  rcases apply_cases_of_enters enters few isUsed with
    ⟨same, unchanged⟩ | ⟨_, changed, isText', flat, entered⟩
  · rw [same, unchanged text isText]
    exact grows.text? isText
  · cases isText.symm.trans isText'
    rw [flat]
    exact entered

/-- What the flattening of descriptors does to a class: uses are pointed to new
entries, in code only where its names are found. -/
structure Replaces (classFile new : ClassFile) (capable : String → Bool) (used : List UInt16)
    (indices : IndexMap) (last : ConstantPool) : Prop where
  collected : classFile.descriptorIndices = .ok used
  grows : classFile.pool.Grows last
  enters : indices.Enters last (changes capable classFile.pool used)
  isNew : new = { classFile with
    pool := indices.onPool last, fields := classFile.fields.map indices.onMember,
    methods := new.methods }
  methods : (∃ codeName tableName, last.textIndex? Attribute.codeName = some codeName ∧
      last.textIndex? Attribute.localVariableTableName = some tableName ∧
      List.Forall₂ (fun method method' =>
        indices.onMethodCode codeName tableName (indices.onMember method) = .ok method')
        classFile.methods new.methods) ∨
    (last.textIndex? Attribute.codeName = none ∨
      last.textIndex? Attribute.localVariableTableName = none ∨
      ∀ index, indices.apply index = index) ∧
      new.methods = classFile.methods.map indices.onMember

theorem flattenDescriptors?_interns {answers : String → Except OracleError Bool}
    {classFile : ClassFile} {described : Option ClassFile}
    (flattened : classFile.flattenDescriptors?.eval answers = .ok described) :
    ∃ used indices last, classFile.Replaces (described.getD classFile) (capability answers) used
      indices last ∧ classFile.pool.Interns last := by
  rcases flattenDescriptors?_spec flattened with
    ⟨used, collected, ⟨unchanged, rfl⟩ | ⟨_, replaced, replaces, rfl⟩⟩
  · have keeps (members : List Member) : members.map (IndexMap.onMember {}) = members :=
      List.map_id'' IndexMap.onMember_empty members
    refine ⟨used, {}, classFile.pool, ⟨collected, .refl _, ?_, ?_, ?_⟩, .refl⟩
    · rw [unchanged]
      exact (internTexts_spec classFile.pool []).2
    · rw [Option.getD_none, keeps, IndexMap.onPool_empty]
    · exact .inr ⟨.inr (.inr IndexMap.apply_empty), (keeps _).symm⟩
  · rcases replaceDescriptors_cases replaces with ⟨indices, last, entered, isReplaced, methods⟩
    rcases internTexts_spec classFile.pool (changes (capability answers) classFile.pool used) with
      ⟨interns, enters⟩
    rw [← entered] at interns enters
    refine ⟨used, indices, last,
      ⟨collected, interns.grows, enters, isReplaced, methods.imp_right ?_⟩, interns⟩
    rintro ⟨noName, isMapped⟩
    exact ⟨noName.imp_right .inl, isMapped⟩

theorem flattenDescriptors?_replaces {answers : String → Except OracleError Bool}
    {classFile : ClassFile} {described : Option ClassFile}
    (flattened : classFile.flattenDescriptors?.eval answers = .ok described) :
    ∃ used indices last, classFile.Replaces (described.getD classFile) (capability answers) used
      indices last := by
  rcases flattenDescriptors?_interns flattened with ⟨used, indices, last, replaces, _⟩
  exact ⟨used, indices, last, replaces⟩

theorem Replaces.redescribes {classFile new : ClassFile} {capable : String → Bool}
    {used : List UInt16} {indices : IndexMap} {last : ConstantPool}
    (replaces : classFile.Replaces new capable used indices last) : classFile.Redescribes new := by
  have members (members : List Member) :
      List.Forall₂ Member.Redescribes members (members.map indices.onMember) :=
    List.forall₂_map_right_iff.2 (List.forall₂_same.2 fun _ _ => Member.redescribes_of_eq rfl)
  constructor
  · rw [replaces.isNew]
  · rw [replaces.isNew]
    exact members _
  · rcases replaces.methods with ⟨_, _, _, _, each⟩ | ⟨_, isMapped⟩
    · exact each.imp fun _ _ moved => IndexMap.redescribes_onMethodCode moved
    · rw [isMapped]
      exact members _
  · rw [replaces.isNew]

/-- What the flattening of descriptors leaves, whether or not one changes. -/
theorem flattenDescriptors?_flattens {answers : String → Except OracleError Bool}
    {classFile : ClassFile} {described : Option ClassFile}
    (flattened : classFile.flattenDescriptors?.eval answers = .ok described) :
    ∃ indices last, (described.getD classFile).pool = IndexMap.onPool indices last ∧
      classFile.pool.Grows last ∧ classFile.Redescribes (described.getD classFile) ∧
      (last.entries.size ≤ 65535 →
        indices.Flattens (capability answers) classFile.pool last) := by
  rcases flattenDescriptors?_replaces flattened with ⟨used, indices, last, replaces⟩
  exact ⟨indices, last, congrArg pool replaces.isNew, replaces.grows, replaces.redescribes,
    flattens_of_enters replaces.collected replaces.grows replaces.enters⟩

end ClassFile

end ValueForm
