import ValueForm.Proofs.ClassFile.RoundTrip

/-!
# Classes built by edits

A class is built from one without members by edits of its pool: constants are
appended, and texts, classes and references are interned. `ConstantPool.Sound` is
kept by every edit, whatever index it gives, and whether or not the index still
tells the entries apart. So a class that was built this way is read back from its
encoding, as long as its declared size can say how many slots it has.
-/

namespace ValueForm

/-- A text that fits the length field of its entry. -/
def ShortText (text : String) : Prop :=
  (Bytes.ofText text).length ≤ 65535

instance : DecidablePred ShortText :=
  fun text => inferInstanceAs (Decidable ((Bytes.ofText text).length ≤ 65535))

namespace ConstantPool

namespace Sound

variable {pool : ConstantPool}

theorem empty : Sound {} :=
  ⟨Constant.aligned_iff.2 ⟨[], List.not_mem_nil, rfl⟩, by simp⟩

theorem slotted (sound : pool.Sound) : pool.Slotted :=
  Constant.aligned_iff.1 sound.aligned

theorem push (sound : pool.Sound) {constant : Constant} (readable : constant.Readable) :
    (pool.push constant).2.Sound := by
  constructor
  · exact Constant.aligned_iff.2 (sound.slotted.grows (pool.grows_push readable.1))
  · intro slot found
    rw [← Array.mem_toList_iff, toList_push, List.mem_append, Array.mem_toList_iff] at found
    rcases found with old | new
    · exact sound.texts slot old
    · rcases Constant.eq_of_mem_slots new with rfl | rfl
      · exact readable.2
      · exact Nat.zero_le 65535

theorem intern (sound : pool.Sound) {constant : Constant} (readable : constant.Readable) :
    (pool.intern constant).2.Sound := by
  unfold ConstantPool.intern
  cases pool.indexOf? constant with
  | some index => exact sound
  | none => exact sound.push readable

theorem internText (sound : pool.Sound) {text : String} (short : ShortText text) :
    (pool.internText text).2.Sound :=
  sound.intern ⟨Constant.noConfusion, short⟩

theorem internClass (sound : pool.Sound) {name : String} (short : ShortText name) :
    (pool.internClass name).2.Sound :=
  (sound.internText short).intern (Constant.readable_of_noText Constant.noConfusion rfl)

theorem internNameAndType (sound : pool.Sound) {name descriptor : String}
    (shortName : ShortText name) (shortDescriptor : ShortText descriptor) :
    (pool.internNameAndType name descriptor).2.Sound :=
  ((sound.internText shortName).internText shortDescriptor).intern
    (Constant.readable_of_noText Constant.noConfusion rfl)

end Sound

end ConstantPool

/-- The names and the descriptor of a reference are short texts. -/
structure MemberRef.Short (member : MemberRef) : Prop where
  owner : ShortText member.owner
  name : ShortText member.name
  descriptor : ShortText member.descriptor

instance : DecidablePred MemberRef.Short := fun member =>
  decidable_of_iff (ShortText member.owner ∧ ShortText member.name ∧ ShortText member.descriptor)
    ⟨fun ⟨owner, name, descriptor⟩ => ⟨owner, name, descriptor⟩,
      fun short => ⟨short.owner, short.name, short.descriptor⟩⟩

namespace ConstantPool

theorem Sound.internMember {pool : ConstantPool} (sound : pool.Sound) {member : MemberRef}
    (short : member.Short) :
    ((pool.internClass member.owner).2.internNameAndType member.name member.descriptor).2.Sound :=
  (sound.internClass short.owner).internNameAndType short.name short.descriptor

/-! ## Runs of edits -/

/-- One edit of a pool. -/
inductive Edit where
  | push (constant : Constant)
  | internText (text : String)
  | internClass (name : String)
  | internNameAndType (name descriptor : String)
  | internField (field : MemberRef)
  | internMethod (method : MemberRef)
  deriving DecidableEq, Repr

/-- The pool after an edit. -/
def edit (pool : ConstantPool) : Edit → ConstantPool
  | .push constant => (pool.push constant).2
  | .internText text => (pool.internText text).2
  | .internClass name => (pool.internClass name).2
  | .internNameAndType name descriptor => (pool.internNameAndType name descriptor).2
  | .internField field => (pool.internField field).2
  | .internMethod method => (pool.internMethod method).2

/-- The edit appends no reserved slot by itself, and no text that is too long. -/
def Edit.Admissible : Edit → Prop
  | .push constant => constant.Readable
  | .internText text => ShortText text
  | .internClass name => ShortText name
  | .internNameAndType name descriptor =>
      ShortText name ∧ ShortText descriptor
  | .internField member | .internMethod member => member.Short

instance : DecidablePred Edit.Admissible
  | .push constant => inferInstanceAs (Decidable constant.Readable)
  | .internText text => inferInstanceAs (Decidable (ShortText text))
  | .internClass name => inferInstanceAs (Decidable (ShortText name))
  | .internNameAndType name descriptor =>
      inferInstanceAs (Decidable (ShortText name ∧ ShortText descriptor))
  | .internField member | .internMethod member => inferInstanceAs (Decidable member.Short)

/-- An admissible edit keeps a pool sound. -/
theorem Sound.edit {pool : ConstantPool} (sound : pool.Sound) {edit : Edit}
    (admissible : edit.Admissible) : (pool.edit edit).Sound := by
  cases edit with
  | push constant => exact sound.push admissible
  | internText text => exact sound.internText admissible
  | internClass name => exact sound.internClass admissible
  | internNameAndType name descriptor =>
      exact sound.internNameAndType admissible.1 admissible.2
  | internField member | internMethod member =>
      exact (sound.internMember admissible).intern
        (Constant.readable_of_noText Constant.noConfusion rfl)

/-- A run of admissible edits keeps a pool sound. -/
theorem Sound.foldl_edit {pool : ConstantPool} (sound : pool.Sound) {edits : List Edit}
    (admissible : ∀ edit ∈ edits, edit.Admissible) :
    (edits.foldl ConstantPool.edit pool).Sound := by
  induction edits generalizing pool with
  | nil => exact sound
  | cons edit edits ih =>
      rw [List.forall_mem_cons] at admissible
      exact ih (sound.edit admissible.1) admissible.2

end ConstantPool

/-! ## Built classes -/

namespace ClassFile

/-- The class says of itself what is so: its declared pool size is that of its
slots, and its counts and lengths can be written without cutting them off. -/
structure Consistent (classFile : ClassFile) : Prop where
  size : classFile.pool.size.toNat = classFile.pool.entries.size + 1
  pool : classFile.pool.Sound
  parts : classFile.PartsFit

/-- The class after edits of its pool. -/
def edited (classFile : ClassFile) (edits : List ConstantPool.Edit) : ClassFile :=
  { classFile with pool := edits.foldl ConstantPool.edit classFile.pool }

/-- What is not in the pool does not depend on it. -/
theorem PartsFit.withPool {classFile : ClassFile} (parts : classFile.PartsFit)
    (pool : ConstantPool) : PartsFit { classFile with pool } :=
  ⟨parts.interfaces, parts.fieldCount, parts.fields, parts.methodCount, parts.methods,
    parts.attributes⟩

theorem sound_empty (majorVersion : UInt16) {thisName superName : String}
    (shortThis : ShortText thisName) (shortSuper : ShortText superName) :
    (empty majorVersion thisName superName).pool.Sound :=
  (ConstantPool.Sound.empty.internClass shortThis).internClass shortSuper

theorem partsFit_empty (majorVersion : UInt16) (thisName superName : String) :
    (empty majorVersion thisName superName).PartsFit := by
  constructor
  · exact Nat.zero_le 65535
  · exact Nat.zero_le 65535
  · exact List.forall_mem_nil _
  · exact Nat.zero_le 65535
  · exact List.forall_mem_nil _
  · exact ⟨Nat.zero_le 65535, List.forall_mem_nil _⟩

/-- The declared size says how many slots there are if it can. -/
theorem consistent_syncCounts {classFile : ClassFile} (pool : classFile.pool.Sound)
    (parts : classFile.PartsFit) (few : classFile.pool.entries.size ≤ 65534) :
    classFile.syncCounts.Consistent := by
  refine ⟨?_, ⟨pool.aligned, pool.texts⟩, parts.withPool classFile.pool.syncSize⟩
  have holds : classFile.pool.entries.size + 1 < 2 ^ 16 := by omega
  exact UInt16.toNat_ofNat_of_lt' holds

/-- A consistent class is read back from its encoding; and a class without members
is consistent after any edits of its pool that fit, once its counts are made to
agree. -/
theorem consistent_spec :
    (∀ classFile : ClassFile, classFile.Consistent →
      parse classFile.toBytes = .ok classFile) ∧
    ∀ (majorVersion : UInt16) (thisName superName : String) (edits : List ConstantPool.Edit),
      ShortText thisName → ShortText superName → (∀ edit ∈ edits, edit.Admissible) →
      ((empty majorVersion thisName superName).edited edits).pool.entries.size ≤ 65534 →
      ((empty majorVersion thisName superName).edited edits).syncCounts.Consistent := by
  constructor
  · intro classFile consistent
    exact parse_toBytes ⟨consistent.pool.slotted, consistent.size, consistent.pool.texts⟩
      consistent.parts
  · intro majorVersion thisName superName edits shortThis shortSuper admissible few
    have pool := (sound_empty majorVersion shortThis shortSuper).foldl_edit admissible
    have parts := partsFit_empty majorVersion thisName superName
    exact consistent_syncCounts pool (parts.withPool _) few

/-- Edits of every kind, two of them of two slots, with a text that is no UTF-8. -/
def everyEdit : List ConstantPool.Edit :=
  [.push (.long 1099511627776), .internText "after", .push (.double 0x7ff8000000000001),
    .push (.utf8 [0xff]), .internClass "p/Name", .internNameAndType "name" "()V",
    .internField ⟨"p/Name", "after", "J"⟩, .internMethod ⟨"p/Näme", "name", "()V"⟩]

theorem consistent_spec_everyEdit :
    let built := ((empty 53 "p/Name" "java/lang/Object").edited everyEdit).syncCounts
    (∀ edit ∈ everyEdit, edit.Admissible) ∧ built.pool.entries.size = 19 ∧ built.Consistent ∧
      parse built.toBytes = .ok built := by
  intro built
  have admissible : ∀ edit ∈ everyEdit, edit.Admissible := by decide +kernel
  have slots : built.pool.entries.size = 19 := by decide +kernel
  have consistent : built.Consistent :=
    consistent_spec.2 53 "p/Name" "java/lang/Object" everyEdit (by decide +kernel)
      (by decide +kernel) admissible (slots.trans_le (by decide))
  exact ⟨admissible, slots, consistent, consistent_spec.1 built consistent⟩

end ClassFile

end ValueForm
