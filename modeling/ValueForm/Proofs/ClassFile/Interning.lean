import ValueForm.Proofs.ClassFile.Pool

/-!
# Interned constants

Whatever is interned, the entries of a pool stay at their places, the declared
size follows when one is added, and a text that is there already gets no second
entry. An entry that was asked for is found again: asking once more, in any pool
that keeps the entries, gives the same index and adds nothing.
-/

namespace ValueForm

namespace ConstantPool

@[simp]
theorem entries_push (pool : ConstantPool) (constant : Constant) :
    (pool.push constant).2.entries = pool.entries ++ constant.slots.toArray := by
  apply Array.toList_inj.1
  rw [toList_push, Array.toList_append]

/-- An entry of a pool to which a constant was appended is an old one, or belongs
to the constant. -/
theorem get?_push_cases {pool : ConstantPool} {constant entry : Constant} {index : UInt16}
    (found : (pool.push constant).2.get? index = some entry) :
    pool.get? index = some entry ∨ entry ∈ constant.slots := by
  unfold get? at *
  split at found
  · cases found
  · rw [entries_push, Array.getElem?_append] at found
    split at found
    · exact .inl found
    · exact .inr (List.mem_toArray.1 (Array.mem_of_getElem? found))

theorem text?_push_cases {pool : ConstantPool} {constant : Constant} {index : UInt16}
    {text : String} (found : (pool.push constant).2.text? index = some text) :
    pool.text? index = some text ∨ constant = .utf8 (Bytes.ofText text) := by
  unfold text? at found
  split at found
  · next bytes isText =>
      rcases get?_push_cases isText with isOld | isNew
      · left
        rw [text?, isOld]
        exact found
      · right
        rw [← Bytes.toText?_eq_some_iff.1 found]
        unfold Constant.slots at isNew
        split at isNew <;> simp_all
  · cases found

/-- An appended constant is found where it was appended, if there was none
before. -/
theorem indexOf?_push {pool : ConstantPool} {constant : Constant}
    (absent : pool.indexOf? constant = none) :
    (pool.push constant).2.indexOf? constant = some (pool.push constant).1 := by
  have before : pool.entries.findIdx? (· == constant) = none := by
    simpa [indexOf?, find?] using absent
  have atStart : constant.slots.toArray.findIdx? (· == constant) = some 0 := by
    unfold Constant.slots
    split <;> simp [List.findIdx?_cons]
  rw [indexOf?, find?, entries_push, Array.findIdx?_append, before, atStart]
  simp [push]

/-- What was interned is found. -/
@[simp]
theorem indexOf?_intern (pool : ConstantPool) (constant : Constant) :
    (pool.intern constant).2.indexOf? constant = some (pool.intern constant).1 := by
  unfold intern
  cases found : pool.indexOf? constant with
  | some index => exact found
  | none => exact indexOf?_push found

/-- A text that an index has is found. -/
theorem exists_textIndex?_of_text? {pool : ConstantPool} {index : UInt16} {text : String}
    (found : pool.text? index = some text) : ∃ known, pool.textIndex? text = some known := by
  cases isKnown : pool.textIndex? text with
  | some known => exact ⟨known, rfl⟩
  | none =>
      simp only [textIndex?, indexOf?, find?, Option.map_eq_none_iff,
        Array.findIdx?_eq_none_iff] at isKnown
      unfold text? at found
      split at found
      · next bytes isText =>
          unfold get? at isText
          split at isText
          · cases isText
          · have absent := isKnown _ (Array.mem_of_getElem? isText)
            rw [Bytes.toText?_eq_some_iff.1 found, beq_self_eq_true] at absent
            cases absent
      · cases found

/-! ## Sequences of interned constants -/

/-- The second pool is what interning constants makes of the first. -/
inductive Interns (first : ConstantPool) : ConstantPool → Prop
  | refl : Interns first first
  | intern {pool : ConstantPool} {constant : Constant} (earlier : Interns first pool)
      (isUsed : constant ≠ .reserved) : Interns first (pool.intern constant).2

namespace Interns

variable {first second third : ConstantPool}

theorem trans (earlier : first.Interns second) (later : second.Interns third) :
    first.Interns third := by
  induction later with
  | refl => exact earlier
  | intern _ isUsed ih => exact .intern ih isUsed

theorem grows (interns : first.Interns second) : first.Grows second := by
  induction interns with
  | refl => exact .refl first
  | intern _ isUsed ih => exact ih.trans (intern_spec _ isUsed).1

/-- The declared size follows the entries. -/
theorem size_eq (interns : first.Interns second) :
    second = first ∨ second.size = UInt16.ofNat (second.entries.size + 1) := by
  induction interns with
  | refl => exact .inl rfl
  | @intern pool constant _ _ ih =>
      unfold ConstantPool.intern
      split
      · exact ih
      · exact .inr rfl

/-- A text that is there already gets no second entry. -/
theorem text?_of_textIndex? (interns : first.Interns second) {text : String}
    {known index : UInt16} (isKnown : first.textIndex? text = some known)
    (found : second.text? index = some text) : first.text? index = some text := by
  induction interns with
  | refl => exact found
  | @intern pool constant earlier _ ih =>
      unfold ConstantPool.intern at found
      split at found
      · exact ih found
      · next absent =>
          rcases text?_push_cases found with isOld | rfl
          · exact ih isOld
          · cases absent.symm.trans (earlier.grows.textIndex? isKnown)

end Interns

/-! ## Requests -/

/-- Asking for an entry interns constants. Asked again, in any pool that keeps the
entries, it gives the same index and leaves the pool as it is. -/
structure Finds (request : ConstantPool → UInt16 × ConstantPool) : Prop where
  interns : ∀ pool : ConstantPool, pool.Interns (request pool).2
  again : ∀ pool later : ConstantPool, (request pool).2.Extends later →
    request later = ((request pool).1, later)

theorem finds_intern {constant : Constant} (isUsed : constant ≠ .reserved) :
    Finds fun pool => pool.intern constant := by
  constructor
  · exact fun pool => .intern .refl isUsed
  · intro pool later isKept
    have isThere := Extends.indexOf? isKept (pool.indexOf?_intern constant)
    simp [intern, isThere]

/-- A request that is made with the index that another gives. -/
theorem Finds.andThen {request : ConstantPool → UInt16 × ConstantPool}
    {next : UInt16 → ConstantPool → UInt16 × ConstantPool} (finds : Finds request)
    (later : ∀ index, Finds (next index)) :
    Finds fun pool => next (request pool).1 (request pool).2 := by
  constructor
  · exact fun pool => (finds.interns pool).trans ((later _).interns _)
  · intro pool last isKept
    have grows := ((later (request pool).1).interns (request pool).2).grows
    rw [finds.again pool last (grows.isExtension.trans isKept)]
    exact (later (request pool).1).again (request pool).2 last isKept

theorem finds_internText (text : String) : Finds fun pool => pool.internText text :=
  finds_intern Constant.noConfusion

theorem finds_internClass (name : String) : Finds fun pool => pool.internClass name :=
  (finds_internText name).andThen fun _ => finds_intern Constant.noConfusion

theorem finds_internNameAndType (name descriptor : String) :
    Finds fun pool => pool.internNameAndType name descriptor :=
  (finds_internText name).andThen fun _ =>
    (finds_internText descriptor).andThen fun _ => finds_intern Constant.noConfusion

theorem finds_internField (field : MemberRef) : Finds fun pool => pool.internField field :=
  (finds_internClass field.owner).andThen fun _ =>
    (finds_internNameAndType field.name field.descriptor).andThen fun _ =>
      finds_intern Constant.noConfusion

theorem finds_internMethod (method : MemberRef) : Finds fun pool => pool.internMethod method :=
  (finds_internClass method.owner).andThen fun _ =>
    (finds_internNameAndType method.name method.descriptor).andThen fun _ =>
      finds_intern Constant.noConfusion

end ConstantPool

/-! ## Symbols -/

/-- What an entry can be asked for by. -/
inductive Symbol where
  | text (text : String)
  | className (name : String)
  | nameAndType (name descriptor : String)
  | field (field : MemberRef)
  | method (method : MemberRef)
  deriving DecidableEq, Repr

namespace ConstantPool

/-- The index of the entry that a symbol asks for. -/
def internSymbol (pool : ConstantPool) : Symbol → UInt16 × ConstantPool
  | .text text => pool.internText text
  | .className name => pool.internClass name
  | .nameAndType name descriptor => pool.internNameAndType name descriptor
  | .field field => pool.internField field
  | .method method => pool.internMethod method

/-- The entry at an index is of the kind of a symbol, and resolves to what the
symbol says. -/
def Denotes (pool : ConstantPool) (index : UInt16) : Symbol → Prop
  | .text text => (∃ bytes, pool.get? index = some (.utf8 bytes)) ∧ pool.text? index = some text
  | .className name =>
      (∃ nameIndex, pool.get? index = some (.classRef nameIndex)) ∧
        pool.className? index = some name
  | .nameAndType name descriptor =>
      (∃ nameIndex descriptorIndex,
        pool.get? index = some (.nameAndType nameIndex descriptorIndex)) ∧
        pool.nameAndType? index = some (name, descriptor)
  | .field field =>
      (∃ owner nameAndType, pool.get? index = some (.fieldRef owner nameAndType)) ∧
        pool.member? index = some field
  | .method method =>
      (∃ owner nameAndType, pool.get? index = some (.methodRef owner nameAndType)) ∧
        pool.member? index = some method

/-- What an index resolves to in the first pool it resolves to in the second. -/
structure Resolves (first second : ConstantPool) : Prop where
  text : ∀ index text, first.text? index = some text → second.text? index = some text
  className : ∀ index name, first.className? index = some name →
    second.className? index = some name
  nameAndType : ∀ index pair, first.nameAndType? index = some pair →
    second.nameAndType? index = some pair
  member : ∀ index member, first.member? index = some member →
    second.member? index = some member

theorem Extends.resolves {first second : ConstantPool} (isKept : first.Extends second) :
    first.Resolves second :=
  ⟨fun _ _ => isKept.text?, fun _ _ => isKept.className?, fun _ _ => isKept.nameAndType?,
    fun _ _ => isKept.member?⟩

theorem finds_internSymbol (symbol : Symbol) : Finds fun pool => pool.internSymbol symbol := by
  cases symbol with
  | text text => exact finds_internText text
  | className name => exact finds_internClass name
  | nameAndType name descriptor => exact finds_internNameAndType name descriptor
  | field field => exact finds_internField field
  | method method => exact finds_internMethod method

theorem denotes_internSymbol {pool : ConstantPool} {symbol : Symbol}
    (few : (pool.internSymbol symbol).2.entries.size ≤ 65535) :
    (pool.internSymbol symbol).2.Denotes (pool.internSymbol symbol).1 symbol := by
  -- The last step of each request interns a constant of the kind.
  cases symbol with
  | text text =>
      exact ⟨⟨_, (intern_spec _ Constant.noConfusion).2 few⟩, (pool.internText_spec text).2 few⟩
  | className name =>
      exact ⟨⟨_, (intern_spec _ Constant.noConfusion).2 few⟩, (pool.internClass_spec name).2 few⟩
  | nameAndType name descriptor =>
      exact ⟨⟨_, _, (intern_spec _ Constant.noConfusion).2 few⟩,
        (pool.internNameAndType_spec name descriptor).2 few⟩
  | field field =>
      exact ⟨⟨_, _, (intern_spec _ Constant.noConfusion).2 few⟩,
        (pool.internField_spec field).2 few⟩
  | method method =>
      exact ⟨⟨_, _, (intern_spec _ Constant.noConfusion).2 few⟩,
        (pool.internMethod_spec method).2 few⟩

/-- Asking for a symbol keeps every entry and finds one that denotes the symbol,
each time the same. -/
theorem internSymbol_stable (pool : ConstantPool) (symbol : Symbol) :
    let index := (pool.internSymbol symbol).1
    let after := (pool.internSymbol symbol).2
    pool.Extends after ∧ (after.entries.size ≤ 65535 → after.Denotes index symbol) ∧
      pool.Resolves after ∧ after.internSymbol symbol = (index, after) ∧
      (after.entries ≠ pool.entries → after.size.toNat = (after.entries.size + 1) % 2 ^ 16) := by
  intro index after
  have interns : pool.Interns after := (finds_internSymbol symbol).interns pool
  have isKept := interns.grows.isExtension
  refine ⟨isKept, denotes_internSymbol, isKept.resolves, ?_, ?_⟩
  · exact (finds_internSymbol symbol).again pool after List.prefix_rfl
  · intro isNew
    rcases interns.size_eq with same | size
    · exact absurd (congrArg entries same) isNew
    · rw [size]
      exact UInt16.toNat_ofNat'

/-- A pool with a name twice, a class that has the second for its name, a constant
of two slots and a text that is not UTF-8. -/
def twiceNamed : ConstantPool where
  size := 10
  entries := #[.utf8 (Bytes.ofText "P"), .utf8 (Bytes.ofText "P"), .classRef 2, .long 7, .reserved,
    .utf8 [0xff], .utf8 (Bytes.ofText "x"), .utf8 (Bytes.ofText "I"), .nameAndType 7 8]

/-- The class that is there is not the one that interning asks for. -/
theorem internSymbol_stable_twiceNamed :
    let asked := twiceNamed.internSymbol (.field ⟨"P", "x", "I"⟩)
    asked.1 = 11 ∧
      asked.2.entries.toList = twiceNamed.entries.toList ++ [.classRef 1, .fieldRef 10 9] ∧
      asked.2.Denotes asked.1 (.field ⟨"P", "x", "I"⟩) ∧
      asked.2.internSymbol (.field ⟨"P", "x", "I"⟩) = asked ∧
      asked.2.size.toNat = (asked.2.entries.size + 1) % 2 ^ 16 := by
  intro asked
  have few : asked.2.entries.size ≤ 65535 := by decide +kernel
  have isNew : asked.2.entries ≠ twiceNamed.entries := by decide +kernel
  rcases internSymbol_stable twiceNamed (.field ⟨"P", "x", "I"⟩) with
    ⟨_, denotes, _, again, size⟩
  exact ⟨by decide +kernel, by decide +kernel, denotes few, again, size isNew⟩

end ConstantPool

end ValueForm
