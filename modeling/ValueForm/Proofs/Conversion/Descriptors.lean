import ValueForm.Conversion.Descriptors
import ValueForm.Proofs.Analysis.Rules
import ValueForm.Proofs.Descriptor.Grammar
import ValueForm.Proofs.Outcome

/-!
# What flattening makes of descriptors

The flattened form of a descriptor as a function of the classes that are
value-capable, and the descriptors of a class that change under it.
-/

namespace ValueForm

variable {answers : String → Except OracleError Bool}

/-- Whether a component is flattened. -/
def Component.isFlat (capable : String → Bool) : Component → Bool
  | .verbatim _ => false
  | .classArray _ className => capable className

/-- A component in its flattened form, if it has one. -/
def Component.form (capable : String → Bool) (part : Component) : String :=
  if part.isFlat capable then part.flattenedText else part.text

/-- The flattened form of a descriptor, if it differs. -/
def flattened? (capable : String → Bool) (descriptor : String) : Option String :=
  let parts := Component.split descriptor.toList
  if parts.any (Component.isFlat capable) then
    some (String.join (parts.map (Component.form capable)))
  else none

theorem Component.eval_asks {part : Component} {flat : Bool}
    (asked : (part.asks (Inquiry.capable ConvertError.oracle)).eval answers = .ok flat) :
    flat = part.isFlat (capability answers) := by
  cases part with
  | verbatim text => exact (Inquiry.eval_pure_eq_ok_iff.1 asked).symm
  | classArray dimensions className =>
      exact (capability_of_ok (Inquiry.eval_capable_eq_ok_iff.1 asked)).symm

/-- An oracle that answers gives the flattened form according to its answers. -/
theorem eval_flattenDescriptor {descriptor : String} {changed : Option String}
    (flattened : (flattenDescriptor (Inquiry.capable ConvertError.oracle) descriptor).eval
      answers = .ok changed) : changed = flattened? (capability answers) descriptor := by
  rcases Inquiry.eval_bind_eq_ok_iff.1 flattened with ⟨parts, asked, ended⟩
  have isParts : parts = (Component.split descriptor.toList).map fun part =>
      (part, part.isFlat (capability answers)) := by
    have each := Inquiry.forall₂_of_eval_mapM asked
    clear asked ended
    generalize Component.split descriptor.toList = components at each
    induction each with
    | nil => rfl
    | cons here _ ih =>
        rcases Inquiry.eval_bind_eq_ok_iff.1 here with ⟨flat, asked, ended⟩
        rw [List.map_cons, ← ih, ← Component.eval_asks asked,
          Inquiry.eval_pure_eq_ok_iff.1 ended]
  subst isParts
  have anyFlat : ((Component.split descriptor.toList).map fun part =>
      (part, part.isFlat (capability answers))).any (·.2) =
        (Component.split descriptor.toList).any (Component.isFlat (capability answers)) :=
    List.any_map
  rw [anyFlat] at ended
  unfold flattened?
  split at ended
  · next isFlat =>
      rw [if_pos isFlat, ← Inquiry.eval_pure_eq_ok_iff.1 ended, List.map_map]
      rfl
  · next isPlain => rw [if_neg isPlain, ← Inquiry.eval_pure_eq_ok_iff.1 ended]

/-- Where no class is value-capable every descriptor stays as it is. -/
theorem flattened?_eq_none {capable : String → Bool}
    (noneCapable : ∀ className, capable className = false) (descriptor : String) :
    flattened? capable descriptor = none := by
  refine if_neg fun isFlat => ?_
  rcases List.any_eq_true.1 isFlat with ⟨part, _, isFlat⟩
  cases part with
  | verbatim text => cases isFlat
  | classArray dimensions className =>
      rw [Component.isFlat, noneCapable] at isFlat
      cases isFlat

namespace Component

theorem append_of_classAt? {text name rest : List Char}
    (found : classAt? text = some (name, rest)) : 'L' :: name ++ ';' :: rest = text := by
  unfold classAt? at found
  split at found
  · rw [List.cons_append, (untilSemicolon?_eq_some_iff.1 found).2]
  · cases found

/-- The components of a descriptor spell it. -/
@[simp]
theorem flatMap_text_split (text : List Char) :
    (split text).flatMap (·.text.toList) = text := by
  fun_induction split text with
  | case1 => rfl
  | case2 rest brackets name after found ih =>
      have isBrackets : List.replicate brackets.length '[' = brackets := by
        refine (List.eq_replicate_iff.2 ⟨rfl, fun c isBracket => ?_⟩).symm
        rcases List.mem_cons.1 isBracket with rfl | isBracket
        · rfl
        · simpa using List.mem_takeWhile_imp isBracket
      have spelled : brackets ++ ('L' :: name ++ ';' :: after) = '[' :: rest := by
        rw [append_of_classAt? found]
        exact congrArg ('[' :: ·) List.takeWhile_append_dropWhile
      rw [List.flatMap_cons, ih, ← spelled]
      simp [Component.text, isBrackets]
  | case3 rest brackets found ih =>
      rw [List.flatMap_cons, ih, Component.text, String.toList_ofList]
      exact congrArg ('[' :: ·) List.takeWhile_append_dropWhile
  | case4 c rest _ name after found ih =>
      rw [List.flatMap_cons, ih, ← append_of_classAt? found]
      simp [Component.text]
  | case5 rest => simp [Component.text]
  | case6 c rest _ _ _ ih =>
      rw [List.flatMap_cons, ih, Component.text, String.toList_ofList]
      rfl

theorem length_text_lt {capable : String → Bool} {part : Component}
    (isFlat : part.isFlat capable = true) : part.text.length < (part.form capable).length := by
  cases part with
  | verbatim text => cases isFlat
  | classArray dimensions className =>
      rw [form, if_pos isFlat]
      have lengths : "L".length = 1 ∧ ";".length = 1 ∧ "[".length = 1 ∧ "Q".length = 1 ∧
          "$Value;".length = 7 := by
        decide
      simp only [Component.text, flattenedText, valueArrayDescriptor, valueElementDescriptor,
        String.length_append, String.length_ofList, List.length_replicate]
      omega

theorem length_text_le (capable : String → Bool) (part : Component) :
    part.text.length ≤ (part.form capable).length := by
  cases isFlat : part.isFlat capable with
  | true => exact Nat.le_of_lt (length_text_lt isFlat)
  | false =>
      rw [form, if_neg (isFlat ▸ Bool.false_ne_true)]

end Component

/-- A descriptor that changes gets longer. -/
theorem length_lt_of_flattened? {capable : String → Bool} {descriptor changed : String}
    (flat : flattened? capable descriptor = some changed) :
    descriptor.length < changed.length := by
  unfold flattened? at flat
  dsimp only at flat
  split at flat
  · next isFlat =>
      cases flat
      have spelled : descriptor.length =
          ((Component.split descriptor.toList).map (·.text.length)).sum := by
        rw [← String.length_toList, ← Component.flatMap_text_split descriptor.toList,
          List.length_flatMap, Component.flatMap_text_split]
        simp only [String.length_toList]
      rw [spelled, String.length_join, List.map_map]
      rcases List.any_eq_true.1 isFlat with ⟨part, isPart, isFlat⟩
      exact List.sum_lt_sum _ _ (fun part _ => part.length_text_le capable)
        ⟨part, isPart, Component.length_text_lt isFlat⟩
  · cases flat

namespace ClassFile

/-- The descriptors that change, with their new texts. -/
def changes (capable : String → Bool) (pool : ConstantPool) (indices : List UInt16) :
    List (UInt16 × String) :=
  indices.filterMap fun index => do
    let text ← pool.text? index
    return (index, ← flattened? capable text)

theorem changedDescriptors_spec {pool : ConstantPool} {indices : List UInt16}
    {done result : List (UInt16 × String)}
    (changed : (changedDescriptors pool indices done).eval answers = .ok result) :
    result = done.reverse ++ changes (capability answers) pool indices := by
  induction indices generalizing done with
  | nil => simpa [changes] using (Inquiry.eval_pure_eq_ok_iff.1 changed).symm
  | cons index rest ih =>
      rw [changedDescriptors] at changed
      cases found : pool.text? index with
      | none =>
          rw [found] at changed
          rcases Inquiry.eval_bind_eq_ok_iff.1 changed with ⟨_, asked, changed⟩
          cases Inquiry.eval_pure_eq_ok_iff.1 asked
          rw [ih changed]
          simp [changes, found]
      | some text =>
          rw [found] at changed
          rcases Inquiry.eval_bind_eq_ok_iff.1 changed with ⟨new?, asked, changed⟩
          have isNew := eval_flattenDescriptor asked
          cases new? with
          | none =>
              rw [ih changed]
              simp [changes, found, ← isNew]
          | some new =>
              rw [ih changed]
              simp [changes, found, ← isNew]

/-- Every text that is looked at is asked about. -/
theorem eval_of_changedDescriptors {pool : ConstantPool} {indices : List UInt16}
    {done result : List (UInt16 × String)}
    (changed : (changedDescriptors pool indices done).eval answers = .ok result) {index : UInt16}
    (isUsed : index ∈ indices) {text : String} (isText : pool.text? index = some text) :
    (flattenDescriptor (Inquiry.capable ConvertError.oracle) text).eval answers =
      .ok (flattened? (capability answers) text) := by
  induction indices generalizing done with
  | nil => cases isUsed
  | cons first rest ih =>
      rw [changedDescriptors] at changed
      cases found : pool.text? first with
      | none =>
          rw [found] at changed
          rcases Inquiry.eval_bind_eq_ok_iff.1 changed with ⟨_, asked, changed⟩
          cases Inquiry.eval_pure_eq_ok_iff.1 asked
          rcases List.mem_cons.1 isUsed with rfl | isUsed
          · cases found.symm.trans isText
          · exact ih changed isUsed
      | some text =>
          rw [found] at changed
          rcases Inquiry.eval_bind_eq_ok_iff.1 changed with ⟨new?, asked, changed⟩
          rcases List.mem_cons.1 isUsed with rfl | isUsed
          · cases found.symm.trans isText
            rw [← eval_flattenDescriptor asked]
            exact asked
          · cases new? with
            | none => exact ih changed isUsed
            | some new => exact ih changed isUsed

/-- What the flattening of the descriptors of a class gives. -/
theorem flattenDescriptors?_spec {classFile : ClassFile} {described : Option ClassFile}
    (flattened : classFile.flattenDescriptors?.eval answers = .ok described) :
    ∃ indices, classFile.descriptorIndices = .ok indices ∧
      ((changes (capability answers) classFile.pool indices = [] ∧ described = none) ∨
        changes (capability answers) classFile.pool indices ≠ [] ∧
          ∃ replaced, classFile.replaceDescriptors
            (changes (capability answers) classFile.pool indices) = .ok replaced ∧
            described = some replaced) := by
  rcases Inquiry.eval_bind_eq_ok_iff.1 flattened with ⟨indices, collected, flattened⟩
  rcases Inquiry.eval_bind_eq_ok_iff.1 flattened with ⟨changed, asked, flattened⟩
  have isChanges := changedDescriptors_spec asked
  rw [List.reverse_nil, List.nil_append] at isChanges
  subst isChanges
  refine ⟨indices, collected, ?_⟩
  split at flattened
  · next nothing => exact .inl ⟨nothing, (Inquiry.eval_pure_eq_ok_iff.1 flattened).symm⟩
  · next something =>
      rcases Inquiry.eval_bind_eq_ok_iff.1 flattened with ⟨replaced, replaces, ended⟩
      exact .inr ⟨something, replaced, replaces, (Inquiry.eval_pure_eq_ok_iff.1 ended).symm⟩

/-- Every descriptor that is used is asked about. -/
theorem eval_of_flattenDescriptors? {classFile : ClassFile} {described : Option ClassFile}
    (flattened : classFile.flattenDescriptors?.eval answers = .ok described)
    {indices : List UInt16} (collected : classFile.descriptorIndices = .ok indices)
    {index : UInt16} (isUsed : index ∈ indices) {text : String}
    (isText : classFile.pool.text? index = some text) :
    (flattenDescriptor (Inquiry.capable ConvertError.oracle) text).eval answers =
      .ok (flattened? (capability answers) text) := by
  rcases Inquiry.eval_bind_eq_ok_iff.1 flattened with ⟨_, collected', flattened⟩
  cases collected.symm.trans collected'
  rcases Inquiry.eval_bind_eq_ok_iff.1 flattened with ⟨changed, asked, _⟩
  exact eval_of_changedDescriptors asked isUsed isText

/-- Where no class is value-capable no descriptor changes. -/
theorem changes_eq_nil {capable : String → Bool}
    (noneCapable : ∀ className, capable className = false) (pool : ConstantPool)
    (indices : List UInt16) : changes capable pool indices = [] := by
  rw [changes, List.filterMap_eq_nil_iff]
  intro index _
  cases pool.text? index with
  | none => rfl
  | some text => simp [flattened?_eq_none noneCapable]

/-! ## Uses -/

/-- The text entries that a class uses as descriptors. -/
inductive UsesDescriptor (classFile : ClassFile) : UInt16 → Prop
  | member {member : Member} (isMember : member ∈ classFile.fields ++ classFile.methods) :
      UsesDescriptor classFile member.descriptor
  | constant {constant : Constant} {index : UInt16} (found : constant ∈ classFile.pool.entries)
      (uses : classFile.pool.descriptorIndex? constant = some index) :
      UsesDescriptor classFile index
  | localVariable {method : Member} {item table : Attribute} {code : CodeAttribute}
      {rows : List LocalVariable} {row : LocalVariable} {rest rest' : Bytes}
      (isMethod : method ∈ classFile.methods) (isItem : item ∈ method.attributes)
      (isCode : item.isNamed classFile.pool Attribute.codeName = true)
      (reads : CodeAttribute.read item.info = .ok (code, rest)) (isTable : table ∈ code.attributes)
      (isVariables : table.isNamed classFile.pool Attribute.localVariableTableName = true)
      (lists : LocalVariable.readTable table.info = .ok (rows, rest')) (isRow : row ∈ rows) :
      UsesDescriptor classFile row.descriptor

end ClassFile

theorem CodeAttribute.mem_descriptorIndices_iff {pool : ConstantPool} {code : CodeAttribute}
    {indices : List UInt16} (collected : code.descriptorIndices pool = .ok indices)
    {index : UInt16} :
    index ∈ indices ↔ ∃ table ∈ code.attributes,
      table.isNamed pool Attribute.localVariableTableName = true ∧ ∃ rows rest,
        LocalVariable.readTable table.info = .ok (rows, rest) ∧
        ∃ row ∈ rows, row.descriptor = index := by
  rcases Outcome.bind_eq_ok_iff.1 collected with ⟨listed, traversed, ended⟩
  cases ended
  rw [Outcome.mem_flatten_of_mapM traversed]
  constructor
  · rintro ⟨table, isTable, result, given, found⟩
    rcases List.mem_filter.1 isTable with ⟨isTable, isNamed⟩
    split at given
    · next rows rest lists =>
        cases given
        rcases List.mem_map.1 found with ⟨row, isRow, isIndex⟩
        exact ⟨table, isTable, isNamed, rows, rest, lists, row, isRow, isIndex⟩
    · cases given
  · rintro ⟨table, isTable, isNamed, rows, rest, lists, row, isRow, isIndex⟩
    refine ⟨table, List.mem_filter.2 ⟨isTable, isNamed⟩, rows.map (·.descriptor), ?_,
      List.mem_map.2 ⟨row, isRow, isIndex⟩⟩
    rw [lists]

theorem Member.mem_codeDescriptorIndices_iff {pool : ConstantPool} {method : Member}
    {indices : List UInt16} (collected : method.codeDescriptorIndices pool = .ok indices)
    {index : UInt16} :
    index ∈ indices ↔ ∃ item ∈ method.attributes,
      item.isNamed pool Attribute.codeName = true ∧ ∃ code rest,
        CodeAttribute.read item.info = .ok (code, rest) ∧
        ∃ table ∈ code.attributes,
          table.isNamed pool Attribute.localVariableTableName = true ∧ ∃ rows rest,
            LocalVariable.readTable table.info = .ok (rows, rest) ∧
            ∃ row ∈ rows, row.descriptor = index := by
  rcases Outcome.bind_eq_ok_iff.1 collected with ⟨listed, traversed, ended⟩
  cases ended
  rw [Outcome.mem_flatten_of_mapM traversed]
  constructor
  · rintro ⟨item, isItem, result, given, found⟩
    rcases List.mem_filter.1 isItem with ⟨isItem, isNamed⟩
    split at given
    · next code rest reads =>
        exact ⟨item, isItem, isNamed, code, rest, reads,
          (CodeAttribute.mem_descriptorIndices_iff given).1 found⟩
    · cases given
  · rintro ⟨item, isItem, isNamed, code, rest, reads, found⟩
    have isBody := List.mem_filter.2 ⟨isItem, isNamed⟩
    rcases Outcome.exists_of_mem_forall₂ (Outcome.forall₂_of_mapM traversed).flip isBody with
      ⟨result, _, given⟩
    refine ⟨item, isBody, result, given, ?_⟩
    rw [reads] at given
    exact (CodeAttribute.mem_descriptorIndices_iff given).2 found

/-- The descriptors that are looked at are those that the class uses. -/
theorem ClassFile.mem_descriptorIndices_iff {classFile : ClassFile} {used : List UInt16}
    (collected : classFile.descriptorIndices = .ok used) {index : UInt16} :
    index ∈ used ↔ classFile.UsesDescriptor index := by
  rcases Outcome.bind_eq_ok_iff.1 collected with ⟨debugged, traversed, ended⟩
  cases ended
  rw [Std.TreeSet.mem_toList, Std.TreeSet.mem_ofList, List.contains_iff_mem, List.mem_append,
    List.mem_append, Outcome.mem_flatten_of_mapM traversed]
  constructor
  · rintro ((found | found) | ⟨method, isMethod, indices, listed, found⟩)
    · rcases List.mem_map.1 found with ⟨member, isMember, rfl⟩
      exact .member isMember
    · rcases List.mem_filterMap.1 found with ⟨constant, found, uses⟩
      exact .constant (Array.mem_toList_iff.1 found) uses
    · rcases (Member.mem_codeDescriptorIndices_iff listed).1 found with
        ⟨item, isItem, isCode, code, rest, reads, table, isTable, isVariables, rows, rest', lists,
          row, isRow, rfl⟩
      exact .localVariable isMethod isItem isCode reads isTable isVariables lists isRow
  · intro uses
    cases uses with
    | member isMember => exact .inl (.inl (List.mem_map_of_mem isMember))
    | constant found uses =>
        exact .inl (.inr (List.mem_filterMap.2 ⟨_, Array.mem_toList_iff.2 found, uses⟩))
    | localVariable isMethod isItem isCode reads isTable isVariables lists isRow =>
        rcases Outcome.exists_of_mem_forall₂ (Outcome.forall₂_of_mapM traversed).flip isMethod with
          ⟨indices, _, listed⟩
        refine .inr ⟨_, isMethod, indices, listed, ?_⟩
        exact (Member.mem_codeDescriptorIndices_iff listed).2
          ⟨_, isItem, isCode, _, _, reads, _, isTable, isVariables, _, _, lists, _, isRow, rfl⟩

/-- Code and its tables of local variables were read to collect the descriptors. -/
theorem ClassFile.exists_read_of_collected {classFile : ClassFile} {used : List UInt16}
    (collected : classFile.descriptorIndices = .ok used) {method : Member} {item : Attribute}
    (isMethod : method ∈ classFile.methods) (isItem : item ∈ method.attributes)
    (isCode : item.isNamed classFile.pool Attribute.codeName = true) :
    ∃ code rest, CodeAttribute.read item.info = .ok (code, rest) ∧
      ∀ table ∈ code.attributes,
        table.isNamed classFile.pool Attribute.localVariableTableName = true →
          ∃ rows rest', LocalVariable.readTable table.info = .ok (rows, rest') := by
  rcases Outcome.bind_eq_ok_iff.1 collected with ⟨_, traversed, _⟩
  rcases Outcome.exists_of_mem_forall₂ (Outcome.forall₂_of_mapM traversed).flip isMethod with
    ⟨_, _, listed⟩
  rcases Outcome.bind_eq_ok_iff.1 listed with ⟨_, traversed, _⟩
  rcases Outcome.exists_of_mem_forall₂ (Outcome.forall₂_of_mapM traversed).flip
    (List.mem_filter.2 ⟨isItem, isCode⟩) with ⟨_, _, given⟩
  split at given
  · next code rest reads =>
      refine ⟨code, rest, reads, fun table isTable isVariables => ?_⟩
      rcases Outcome.bind_eq_ok_iff.1 given with ⟨_, traversed, _⟩
      rcases Outcome.exists_of_mem_forall₂ (Outcome.forall₂_of_mapM traversed).flip
        (List.mem_filter.2 ⟨isTable, isVariables⟩) with ⟨_, _, given⟩
      split at given
      · next rows rest' lists => exact ⟨rows, rest', lists⟩
      · cases given
  · cases given

end ValueForm
