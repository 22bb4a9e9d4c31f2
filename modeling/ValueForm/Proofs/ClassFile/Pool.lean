import Mathlib
import ValueForm.ClassFile.Pool

/-!
# Constants stay and are found

Interning a constant only adds to a pool, so what an index resolves to stays.
As long as the pool has at most 65535 entries, the index that interning gives
resolves to what was interned; beyond that indices wrap around.
-/

namespace ValueForm

/-- The bytes of a text spell the text. -/
@[simp]
theorem Bytes.toText?_ofText (text : String) : Bytes.toText? (Bytes.ofText text) = some text := by
  have valid : (ByteArray.mk (Bytes.ofText text).toArray).IsValidUTF8 := text.isValidUTF8
  rw [Bytes.toText?, String.fromUTF8?, dif_pos valid]
  rfl

/-- Bytes that spell a text are the bytes of the text. -/
theorem Bytes.toText?_eq_some_iff {bytes : Bytes} {text : String} :
    bytes.toText? = some text ↔ bytes = Bytes.ofText text := by
  constructor
  · intro spelled
    unfold Bytes.toText? String.fromUTF8? at spelled
    split at spelled
    · cases spelled
      rfl
    · cases spelled
  · rintro rfl
    exact Bytes.toText?_ofText text

/-- The slots that a constant takes in a pool. -/
def Constant.slots (constant : Constant) : List Constant :=
  if constant.isWide then [constant, .reserved] else [constant]

namespace ConstantPool

/-- The second pool has the entries of the first at their places. -/
def Extends (pool pool' : ConstantPool) : Prop :=
  pool.entries.toList <+: pool'.entries.toList

namespace Extends

variable {first second : ConstantPool}

theorem get? (isKept : first.Extends second) {index : UInt16} {constant : Constant}
    (found : first.get? index = some constant) : second.get? index = some constant := by
  unfold ConstantPool.get? at *
  split at found
  · cases found
  · next position isIndex =>
      rcases isKept with ⟨more, isMore⟩
      rw [← Array.getElem?_toList] at found
      rw [← Array.getElem?_toList, ← isMore]
      exact List.getElem?_append_left (List.getElem?_eq_some_iff.1 found).1 ▸ found

theorem text? (isKept : first.Extends second) {index : UInt16} {text : String}
    (found : first.text? index = some text) : second.text? index = some text := by
  unfold ConstantPool.text? at found
  split at found
  · next bytes isText =>
      rw [ConstantPool.text?, isKept.get? isText]
      exact found
  · cases found

/-- The first entry that equals a constant stays the first. -/
theorem indexOf? (isKept : first.Extends second) {index : UInt16} {constant : Constant}
    (found : first.indexOf? constant = some index) : second.indexOf? constant = some index := by
  rcases isKept with ⟨more, isMore⟩
  have isSecond : second.entries = first.entries ++ more.toArray := by
    apply Array.toList_inj.1
    rw [← isMore, Array.toList_append]
  simp only [ConstantPool.indexOf?, find?, Option.map_eq_some_iff] at found ⊢
  rcases found with ⟨position, isFirst, rfl⟩
  refine ⟨position, ?_, rfl⟩
  rw [isSecond, Array.findIdx?_append, isFirst]
  rfl

theorem textIndex? (isKept : first.Extends second) {index : UInt16} {text : String}
    (found : first.textIndex? text = some index) : second.textIndex? text = some index :=
  isKept.indexOf? found

theorem className? (isKept : first.Extends second) {index : UInt16} {name : String}
    (found : first.className? index = some name) : second.className? index = some name := by
  unfold ConstantPool.className? at found
  split at found
  · next nameIndex isClass =>
      rw [ConstantPool.className?, isKept.get? isClass]
      exact isKept.text? found
  · cases found

theorem nameAndType? (isKept : first.Extends second) {index : UInt16} {pair : String × String}
    (found : first.nameAndType? index = some pair) :
    second.nameAndType? index = some pair := by
  unfold ConstantPool.nameAndType? at found
  split at found
  · next nameIndex descriptorIndex isPair =>
      simp only [Option.bind_eq_bind, Option.bind_eq_some_iff] at found
      rcases found with ⟨name, isName, descriptor, isDescriptor, ⟨⟩⟩
      rw [ConstantPool.nameAndType?, isKept.get? isPair]
      simp [isKept.text? isName, isKept.text? isDescriptor]
  · cases found

theorem memberOf? (isKept : first.Extends second) {owner nameAndType : UInt16}
    {member : MemberRef} (found : first.memberOf? owner nameAndType = some member) :
    second.memberOf? owner nameAndType = some member := by
  simp only [ConstantPool.memberOf?, Option.bind_eq_bind, Option.bind_eq_some_iff] at found
  rcases found with ⟨name, isName, pair, isPair, ⟨⟩⟩
  simp [ConstantPool.memberOf?, isKept.className? isName, isKept.nameAndType? isPair]

theorem member? (isKept : first.Extends second) {index : UInt16} {member : MemberRef}
    (found : first.member? index = some member) : second.member? index = some member := by
  unfold ConstantPool.member? at found
  split at found
  · next isField =>
      rw [ConstantPool.member?, isKept.get? isField]
      exact isKept.memberOf? found
  · next isMethod =>
      rw [ConstantPool.member?, isKept.get? isMethod]
      exact isKept.memberOf? found
  · next isMethod =>
      rw [ConstantPool.member?, isKept.get? isMethod]
      exact isKept.memberOf? found
  · cases found

end Extends

/-- The second pool has the entries of the first, and perhaps more constants
after them. -/
def Grows (pool pool' : ConstantPool) : Prop :=
  ∃ added : List Constant, .reserved ∉ added ∧
    pool'.entries.toList = pool.entries.toList ++ added.flatMap Constant.slots

namespace Grows

variable {first second third : ConstantPool}

@[simp]
theorem refl (pool : ConstantPool) : pool.Grows pool :=
  ⟨[], List.not_mem_nil, (List.append_nil _).symm⟩

theorem trans (earlier : first.Grows second) (later : second.Grows third) :
    first.Grows third := by
  rcases earlier with ⟨added, isUsed, isSecond⟩
  rcases later with ⟨added', isUsed', isThird⟩
  refine ⟨added ++ added', ?_, ?_⟩
  · simp [isUsed, isUsed']
  · rw [isThird, isSecond, List.append_assoc, List.flatMap_append]

theorem isExtension (grows : first.Grows second) : first.Extends second := by
  rcases grows with ⟨added, _, isSecond⟩
  exact ⟨added.flatMap Constant.slots, isSecond.symm⟩

theorem size_le (grows : first.Grows second) : first.entries.size ≤ second.entries.size :=
  grows.isExtension.length_le

theorem get? (grows : first.Grows second) {index : UInt16} {constant : Constant}
    (found : first.get? index = some constant) : second.get? index = some constant :=
  grows.isExtension.get? found

theorem text? (grows : first.Grows second) {index : UInt16} {text : String}
    (found : first.text? index = some text) : second.text? index = some text :=
  grows.isExtension.text? found

theorem textIndex? (grows : first.Grows second) {index : UInt16} {text : String}
    (found : first.textIndex? text = some index) : second.textIndex? text = some index :=
  grows.isExtension.textIndex? found

theorem className? (grows : first.Grows second) {index : UInt16} {name : String}
    (found : first.className? index = some name) : second.className? index = some name :=
  grows.isExtension.className? found

theorem nameAndType? (grows : first.Grows second) {index : UInt16} {pair : String × String}
    (found : first.nameAndType? index = some pair) : second.nameAndType? index = some pair :=
  grows.isExtension.nameAndType? found

theorem member? (grows : first.Grows second) {index : UInt16} {member : MemberRef}
    (found : first.member? index = some member) : second.member? index = some member :=
  grows.isExtension.member? found

end Grows

/-- The size that a pool declares is not looked at. -/
@[simp]
theorem grows_syncSize (pool : ConstantPool) : pool.Grows pool.syncSize :=
  ⟨[], List.not_mem_nil, (List.append_nil _).symm⟩

/-! ## Interning -/

theorem toList_push (pool : ConstantPool) (constant : Constant) :
    (pool.push constant).2.entries.toList = pool.entries.toList ++ constant.slots := by
  unfold push syncSize Constant.slots
  dsimp only
  split
  · simp
  · simp

theorem grows_push (pool : ConstantPool) {constant : Constant} (isUsed : constant ≠ .reserved) :
    pool.Grows (pool.push constant).2 := by
  refine ⟨[constant], ?_, ?_⟩
  · exact fun found => isUsed (List.mem_singleton.1 found).symm
  · rw [toList_push, List.flatMap_singleton]

theorem get?_ofNat {pool : ConstantPool} {position : Nat} (few : position < 65535) :
    pool.get? (UInt16.ofNat (position + 1)) = pool.entries[position]? := by
  have isIndex : (UInt16.ofNat (position + 1)).toNat = position + 1 :=
    UInt16.toNat_ofNat_of_lt' (by simp [UInt16.size]; omega)
  rw [get?, isIndex]

/-- The new entry is at its index. -/
theorem get?_push {pool : ConstantPool} {constant : Constant}
    (few : (pool.push constant).2.entries.size ≤ 65535) :
    (pool.push constant).2.get? (pool.push constant).1 = some constant := by
  have size : pool.entries.size < (pool.push constant).2.entries.size := by
    unfold push syncSize
    dsimp only
    split
    · rw [Array.size_push, Array.size_push]
      omega
    · rw [Array.size_push]
      omega
  have index : (pool.push constant).1 = UInt16.ofNat (pool.entries.size + 1) := by
    simp [push]
  rw [index, get?_ofNat (by omega)]
  unfold push syncSize
  dsimp only
  split
  · have inner : pool.entries.size ≠ (pool.entries.push constant).size := by
      rw [Array.size_push]
      exact Nat.ne_of_lt (Nat.lt_succ_self _)
    rw [Array.getElem?_push, if_neg inner, Array.getElem?_push_size]
  · exact Array.getElem?_push_size

theorem get?_of_indexOf? {pool : ConstantPool} {constant : Constant} {index : UInt16}
    (few : pool.entries.size ≤ 65535) (found : pool.indexOf? constant = some index) :
    pool.get? index = some constant := by
  simp only [indexOf?, find?, Option.map_eq_some_iff] at found
  rcases found with ⟨position, isFirst, rfl⟩
  rcases Array.findIdx?_eq_some_iff_getElem.1 isFirst with ⟨inRange, same, _⟩
  rw [get?_ofNat (by omega), Array.getElem?_eq_getElem inRange, beq_iff_eq.1 same]

theorem text?_of_textIndex? {pool : ConstantPool} {text : String} {index : UInt16}
    (few : pool.entries.size ≤ 65535) (found : pool.textIndex? text = some index) :
    pool.text? index = some text := by
  rw [text?, get?_of_indexOf? few found]
  exact Bytes.toText?_ofText text

/-- Interning adds to the pool at most, and the constant is at the index. -/
theorem intern_spec (pool : ConstantPool) {constant : Constant} (isUsed : constant ≠ .reserved) :
    pool.Grows (pool.intern constant).2 ∧
      ((pool.intern constant).2.entries.size ≤ 65535 →
        (pool.intern constant).2.get? (pool.intern constant).1 = some constant) := by
  unfold intern
  cases found : pool.indexOf? constant with
  | some index => exact ⟨Grows.refl pool, fun few => get?_of_indexOf? few found⟩
  | none => exact ⟨grows_push pool isUsed, get?_push⟩

theorem internText_spec (pool : ConstantPool) (text : String) :
    pool.Grows (pool.internText text).2 ∧
      ((pool.internText text).2.entries.size ≤ 65535 →
        (pool.internText text).2.text? (pool.internText text).1 = some text) := by
  have isUsed : Constant.utf8 (Bytes.ofText text) ≠ .reserved := Constant.noConfusion
  rcases pool.intern_spec isUsed with ⟨grows, interned⟩
  refine ⟨grows, ?_⟩
  intro few
  rw [text?, internText, interned few]
  exact Bytes.toText?_ofText text

theorem internClass_spec (pool : ConstantPool) (name : String) :
    pool.Grows (pool.internClass name).2 ∧
      ((pool.internClass name).2.entries.size ≤ 65535 →
        (pool.internClass name).2.className? (pool.internClass name).1 = some name) := by
  rcases pool.internText_spec name with ⟨grows, named⟩
  have isUsed : Constant.classRef (pool.internText name).1 ≠ .reserved := Constant.noConfusion
  rcases (pool.internText name).2.intern_spec isUsed with ⟨grows', interned⟩
  refine ⟨grows.trans grows', ?_⟩
  intro few
  have isClass := interned few
  rw [className?, internClass, isClass]
  exact grows'.text? (named (Nat.le_trans grows'.size_le few))

theorem internNameAndType_spec (pool : ConstantPool) (name descriptor : String) :
    pool.Grows (pool.internNameAndType name descriptor).2 ∧
      ((pool.internNameAndType name descriptor).2.entries.size ≤ 65535 →
        (pool.internNameAndType name descriptor).2.nameAndType?
          (pool.internNameAndType name descriptor).1 = some (name, descriptor)) := by
  rcases pool.internText_spec name with ⟨grows, named⟩
  rcases (pool.internText name).2.internText_spec descriptor with ⟨grows', described⟩
  have isUsed : Constant.nameAndType (pool.internText name).1
      ((pool.internText name).2.internText descriptor).1 ≠ .reserved := Constant.noConfusion
  rcases ((pool.internText name).2.internText descriptor).2.intern_spec isUsed with
    ⟨grows'', interned⟩
  refine ⟨(grows.trans grows').trans grows'', ?_⟩
  intro few
  have few' := Nat.le_trans grows''.size_le few
  have few'' := Nat.le_trans grows'.size_le few'
  have isPair := interned few
  rw [nameAndType?, internNameAndType, isPair]
  simp [(grows'.trans grows'').text? (named few''), grows''.text? (described few')]

/-- What holds of a reference to a member, of whichever kind. -/
theorem internMember_spec (pool : ConstantPool) (member : MemberRef)
    {reference : UInt16 → UInt16 → Constant}
    (isUsed : ∀ owner nameAndType, reference owner nameAndType ≠ .reserved)
    (resolves : ∀ (pool : ConstantPool) (index owner nameAndType : UInt16),
      pool.get? index = some (reference owner nameAndType) →
        pool.member? index = pool.memberOf? owner nameAndType) :
    let owner := pool.internClass member.owner
    let nameAndType := owner.2.internNameAndType member.name member.descriptor
    let interned := nameAndType.2.intern (reference owner.1 nameAndType.1)
    pool.Grows interned.2 ∧
      (interned.2.entries.size ≤ 65535 → interned.2.member? interned.1 = some member) := by
  intro owner nameAndType interned
  rcases pool.internClass_spec member.owner with ⟨grows, named⟩
  rcases owner.2.internNameAndType_spec member.name member.descriptor with ⟨grows', described⟩
  rcases nameAndType.2.intern_spec (isUsed owner.1 nameAndType.1) with ⟨grows'', isReference⟩
  refine ⟨(grows.trans grows').trans grows'', ?_⟩
  intro few
  have few' := Nat.le_trans grows''.size_le few
  have few'' := Nat.le_trans grows'.size_le few'
  have isOwner : interned.2.className? owner.1 = some member.owner :=
    (grows'.trans grows'').className? (named few'')
  have isPair : interned.2.nameAndType? nameAndType.1 = some (member.name, member.descriptor) :=
    grows''.nameAndType? (described few')
  rw [resolves _ _ _ _ (isReference few)]
  simp [memberOf?, isOwner, isPair, interned]

theorem internField_spec (pool : ConstantPool) (field : MemberRef) :
    pool.Grows (pool.internField field).2 ∧
      ((pool.internField field).2.entries.size ≤ 65535 →
        (pool.internField field).2.member? (pool.internField field).1 = some field) := by
  apply pool.internMember_spec field
  · exact fun _ _ => Constant.noConfusion
  · intro pool index owner nameAndType isField
    rw [member?, isField]

theorem internMethod_spec (pool : ConstantPool) (method : MemberRef) :
    pool.Grows (pool.internMethod method).2 ∧
      ((pool.internMethod method).2.entries.size ≤ 65535 →
        (pool.internMethod method).2.member? (pool.internMethod method).1 = some method) := by
  apply pool.internMember_spec method
  · exact fun _ _ => Constant.noConfusion
  · intro pool index owner nameAndType isMethod
    rw [member?, isMethod]

end ConstantPool

end ValueForm
