import ValueForm.ClassFile.Basic
import ValueForm.Proofs.ClassFile.Slots

/-!
# Classes read back

A class is read back from its encoding if it fits the format: every number of
items, length of a text and length of a body fits the field that it is written
to, and the pool declares the slots it has. Nothing checks this when a class is
written; a number that does not fit is cut off.

What was read fits, but for the declared size of its pool, which may end in the
middle of a constant: `ClassFile.Readable` is what remains true of it. Between
classes of this kind and what is written for them reading loses nothing: flags,
texts and constants are kept by their bits, whether or not they mean anything.
-/

namespace ValueForm

open Reader

/-! ## Attributes and members -/

/-- The body of an attribute fits its length field. -/
def Attribute.Fits (item : Attribute) : Prop :=
  item.info.length < 2 ^ 32

namespace Attribute

instance : DecidablePred Fits :=
  fun item => inferInstanceAs (Decidable (item.info.length < 2 ^ 32))

@[simp]
theorem length_toBytes (item : Attribute) : item.toBytes.length = 6 + item.info.length := by
  simp only [toBytes, List.length_append, Bytes.length_ofUInt16, Bytes.length_ofUInt32]

theorem reads_toBytes {item : Attribute} (fits : item.Fits) : read.Reads item.toBytes item := by
  have length : (UInt32.ofNat item.info.length).toNat = item.info.length :=
    UInt32.toNat_ofNat_of_lt' fits
  rw [toBytes, List.append_assoc]
  exact (reads_u16 _).bind ((reads_u32 _).bind (reads_take length).bind_pure)

/-- An attribute that was read fits, and takes up what is written for it. -/
theorem consumes_read :
    read.Consumes [] fun item taken => item.Fits ∧ taken = item.toBytes := by
  refine exact_u16.bind fun name => exact_u32.bind fun length =>
    (consumes_take length.toNat).bind ?_
  rintro info _ ⟨isLength, rfl⟩
  refine consumes_pure ⟨?_, ?_⟩
  · rw [Fits, isLength]
    exact length.toNat_lt
  · rw [toBytes, isLength, UInt32.ofNat_toNat]
    rfl

end Attribute

/-- Attributes whose number and bodies fit their fields. -/
structure AttributesFit (items : List Attribute) : Prop where
  count : items.length ≤ 65535
  each : ∀ item ∈ items, item.Fits

theorem AttributesFit.reads_counted16 {items : List Attribute} (fits : AttributesFit items) :
    (counted16 Attribute.read).Reads (Bytes.counted16 Attribute.toBytes items) items :=
  Reader.reads_counted16 fits.count fun item found => Attribute.reads_toBytes (fits.each item found)

theorem consumes_attributes :
    (counted16 Attribute.read).Consumes [] fun items taken =>
      AttributesFit items ∧ taken = Bytes.counted16 Attribute.toBytes items :=
  (consumes_counted16 Attribute.consumes_read).mono fun _ _ spelled =>
    ⟨⟨spelled.1.1, spelled.1.2⟩, spelled.2⟩

namespace Member

theorem reads_toBytes {member : Member} (fits : AttributesFit member.attributes) :
    read.Reads member.toBytes member := by
  simp only [toBytes, List.append_assoc]
  exact (reads_u16 _).bind ((reads_u16 _).bind ((reads_u16 _).bind fits.reads_counted16.bind_pure))

theorem consumes_read :
    read.Consumes [] fun member taken =>
      AttributesFit member.attributes ∧ taken = member.toBytes := by
  refine exact_u16.bind fun access => exact_u16.bind fun name => exact_u16.bind fun descriptor =>
    consumes_attributes.bind ?_
  rintro attributes _ ⟨fits, rfl⟩
  exact consumes_pure ⟨fits, rfl⟩

end Member

theorem ExceptionEntry.reads_toBytes (entry : ExceptionEntry) :
    read.Reads entry.toBytes entry := by
  simp only [toBytes, List.append_assoc]
  exact (reads_u16 _).bind ((reads_u16 _).bind ((reads_u16 _).bind (reads_u16 _).bind_pure))

theorem ExceptionEntry.exact_read : read.Exact toBytes :=
  Consumes.exact (exact_u16.bind fun _ => exact_u16.bind fun _ => exact_u16.bind fun _ =>
    exact_u16.bind fun _ => consumes_pure rfl)

namespace CodeAttribute

/-- The code, the exception table and the attributes fit their fields. -/
structure Fits (body : CodeAttribute) : Prop where
  code : body.code.length < 2 ^ 32
  exceptions : body.exceptions.length ≤ 65535
  attributes : AttributesFit body.attributes

/-- A code body that fits is read back. -/
theorem reads_toBytes {body : CodeAttribute} (fits : body.Fits) :
    read.Reads body.toBytes body := by
  have length : (UInt32.ofNat body.code.length).toNat = body.code.length :=
    UInt32.toNat_ofNat_of_lt' fits.code
  have exceptions := Reader.reads_counted16 fits.exceptions fun entry _ => entry.reads_toBytes
  simp only [toBytes, List.append_assoc]
  exact (reads_u16 _).bind ((reads_u16 _).bind ((reads_u32 _).bind ((reads_take length).bind
    (exceptions.bind fits.attributes.reads_counted16.bind_pure))))

theorem read_toBytes {body : CodeAttribute} (fits : body.Fits) :
    read body.toBytes = .ok (body, []) := by
  have reads := reads_toBytes fits []
  rwa [List.append_nil] at reads

/-- A code body that was read fits, and takes up what is written for it. -/
theorem consumes_read :
    read.Consumes [] fun body taken => body.Fits ∧ taken = body.toBytes := by
  refine exact_u16.bind fun maxStack => exact_u16.bind fun maxLocals =>
    exact_u32.bind fun length => (consumes_take length.toNat).bind ?_
  rintro code _ ⟨isLength, rfl⟩
  refine ExceptionEntry.exact_read.consumes_counted16.bind ?_
  rintro exceptions _ ⟨few, rfl⟩
  refine consumes_attributes.bind ?_
  rintro attributes _ ⟨fits, rfl⟩
  refine consumes_pure ⟨⟨?_, few, fits⟩, ?_⟩
  · dsimp only
    rw [isLength]
    exact length.toNat_lt
  · rw [toBytes, isLength, UInt32.ofNat_toNat]
    rfl

theorem gives_read : read.Gives Fits :=
  (consumes_read.mono fun _ _ spelled => spelled.1).gives

theorem exact_read : read.Exact toBytes :=
  (consumes_read.mono fun _ _ spelled => spelled.2).exact

end CodeAttribute

/-! ## Classes -/

namespace ClassFile

/-- What is not in the pool of a class fits its fields. -/
structure PartsFit (classFile : ClassFile) : Prop where
  interfaces : classFile.interfaces.length ≤ 65535
  fieldCount : classFile.fields.length ≤ 65535
  fields : ∀ field ∈ classFile.fields, AttributesFit field.attributes
  methodCount : classFile.methods.length ≤ 65535
  methods : ∀ method ∈ classFile.methods, AttributesFit method.attributes
  attributes : AttributesFit classFile.attributes

theorem reads_magic (expected : Bytes) : (Reader.magic expected).Reads expected () := by
  intro rest
  rw [Reader.magic, splitExact_append, List.reverse_nil, List.nil_append]
  exact if_pos rfl

theorem reads_toBytes {classFile : ClassFile} (pool : classFile.pool.Readable)
    (parts : classFile.PartsFit) : read.Reads classFile.toBytes classFile := by
  have interfaces := Reader.reads_counted16 parts.interfaces fun index _ => reads_u16 index
  have fields := Reader.reads_counted16 parts.fieldCount fun field found =>
    Member.reads_toBytes (parts.fields field found)
  have methods := Reader.reads_counted16 parts.methodCount fun method found =>
    Member.reads_toBytes (parts.methods method found)
  simp only [toBytes, List.append_assoc]
  exact (reads_magic magic).bind ((reads_u16 _).bind ((reads_u16 _).bind
    ((ConstantPool.reads_toBytes pool).bind ((reads_u16 _).bind ((reads_u16 _).bind
    ((reads_u16 _).bind (interfaces.bind (fields.bind (methods.bind
    parts.attributes.reads_counted16.bind_pure)))))))))

theorem parse_eq_ok_iff {bytes : Bytes} {classFile : ClassFile} :
    parse bytes = .ok classFile ↔ read bytes = .ok (classFile, []) := by
  unfold parse
  constructor
  · intro parsed
    split at parsed
    · cases parsed
    · next reads =>
        cases parsed
        exact reads
    · cases parsed
  · intro reads
    rw [reads]

/-- A class that fits is read back, with nothing left over. -/
theorem parse_toBytes {classFile : ClassFile} (pool : classFile.pool.Fits)
    (parts : classFile.PartsFit) : parse classFile.toBytes = .ok classFile := by
  have reads := reads_toBytes pool.readable parts []
  rw [List.append_nil] at reads
  exact parse_eq_ok_iff.2 reads

/-- The class can be read from what is written for it. -/
structure Readable (classFile : ClassFile) : Prop where
  pool : classFile.pool.Readable
  parts : classFile.PartsFit

theorem consumes_read :
    read.Consumes [] fun classFile taken => classFile.Readable ∧ taken = classFile.toBytes := by
  refine (exact_magic magic).bind fun _ => exact_u16.bind fun minorVersion =>
    exact_u16.bind fun majorVersion => ConstantPool.consumes_read.bind ?_
  rintro pool _ ⟨readable, rfl⟩
  refine exact_u16.bind fun access => exact_u16.bind fun thisClass =>
    exact_u16.bind fun superClass => exact_u16.consumes_counted16.bind ?_
  rintro interfaces _ ⟨fewInterfaces, rfl⟩
  refine (consumes_counted16 Member.consumes_read).bind ?_
  rintro fields _ ⟨⟨fewFields, fitFields⟩, rfl⟩
  refine (consumes_counted16 Member.consumes_read).bind ?_
  rintro methods _ ⟨⟨fewMethods, fitMethods⟩, rfl⟩
  refine consumes_attributes.bind ?_
  rintro attributes _ ⟨fitAttributes, rfl⟩
  exact consumes_pure ⟨⟨readable, fewInterfaces, fewFields, fitFields, fewMethods, fitMethods,
    fitAttributes⟩, rfl⟩

/-- What was read fits, but for the declared size of its pool. -/
theorem fits_of_parse {bytes : Bytes} {classFile : ClassFile}
    (parsed : parse bytes = .ok classFile) : classFile.pool.Slotted ∧ classFile.PartsFit := by
  rcases consumes_read _ _ _ (parse_eq_ok_iff.1 parsed) with ⟨_, _, readable, _⟩
  exact ⟨Constant.aligned_iff.1 readable.pool.aligned, readable.parts⟩

/-- A class is read at the front of some bytes exactly if it is readable and they
are what is written for it, followed by what is left. -/
theorem read_eq_ok_iff_written {bytes rest : Bytes} {classFile : ClassFile} :
    read bytes = .ok (classFile, rest) ↔
      classFile.Readable ∧ bytes = classFile.toBytes ++ rest :=
  Reader.eq_ok_iff (fun _ readable => reads_toBytes readable.pool readable.parts) consumes_read

end ClassFile

end ValueForm
