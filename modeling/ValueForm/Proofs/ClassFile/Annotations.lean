import ValueForm.ClassFile.Annotations
import ValueForm.Proofs.Reader

/-!
# Annotations read back

An annotation or an element value is read from exactly what is written for it, as
long as its lists, at every depth, can be counted by 16 bits.

The readers are given a bound on the depth of nesting. It is never reached: each
level takes its tag off the input before the next one is read, so two readers of
nested values that do the same on shorter inputs make the same reader of this
level. The recursion without a bound therefore has one solution, and
`ElementValue.read` is it.
-/

namespace ValueForm

open Reader

/-! ## Readers on short inputs -/

namespace Reader

variable {α β : Type} {bound : Nat}

/-- The readers do the same, failures included, on inputs shorter than a bound. -/
def SameBelow (bound : Nat) (first second : Reader α) : Prop :=
  ∀ input, input.length < bound → first input = second input

/-- What the reader leaves is no longer than what it was given. -/
def Shortens (reader : Reader α) : Prop :=
  ∀ input value rest, reader input = .ok (value, rest) → rest.length ≤ input.length

theorem Consumes.shortens {reader : Reader α} {before : Bytes} {spells : α → Bytes → Prop}
    (consumes : reader.Consumes before spells) : reader.Shortens := by
  intro input value rest reads
  rcases consumes input value rest reads with ⟨taken, rfl, _⟩
  rw [List.length_append]
  exact Nat.le_add_left _ _

theorem shortens_u16 : u16.Shortens :=
  exact_u16.consumes.shortens

theorem Shortens.bind {first : Reader α} {next : α → Reader β} (shortens : first.Shortens)
    (later : ∀ value, (next value).Shortens) : (first >>= next).Shortens := by
  intro input result rest reads
  rcases bind_eq_ok_iff.1 reads with ⟨value, between, here, there⟩
  exact Nat.le_trans (later value _ _ _ there) (shortens _ _ _ here)

theorem shortens_pure (value : α) : (pure value : Reader α).Shortens := by
  intro input result rest reads
  cases reads
  exact Nat.le_refl _

namespace SameBelow

variable {first second : Reader α}

theorem refl (reader : Reader α) : SameBelow bound reader reader :=
  fun _ _ => rfl

theorem bind {next next' : α → Reader β} (same : SameBelow bound first second)
    (shortens : first.Shortens) (later : ∀ value, SameBelow bound (next value) (next' value)) :
    SameBelow bound (first >>= next) (second >>= next') := by
  intro input short
  cases reads : first input with
  | error error => rw [bind_of_error reads, bind_of_error (same input short ▸ reads)]
  | ok result =>
      rcases result with ⟨value, rest⟩
      rw [bind_of_ok reads, bind_of_ok (same input short ▸ reads)]
      exact later value rest (Nat.lt_of_le_of_lt (shortens input value rest reads) short)

theorem bind_pure (same : SameBelow bound first second) (make : α → β) :
    SameBelow bound (first >>= fun value => pure (make value))
      (second >>= fun value => pure (make value)) := by
  intro input short
  dsimp only [Bind.bind]
  rw [same input short]

/-- A byte that is taken off first makes room for one more. -/
theorem u8_bind {next next' : UInt8 → Reader β}
    (later : ∀ byte, SameBelow bound (next byte) (next' byte)) :
    SameBelow (bound + 1) (u8 >>= next) (u8 >>= next') := by
  intro input short
  cases input with
  | nil => rfl
  | cons byte rest =>
      rw [bind_of_ok (u8_cons byte rest), bind_of_ok (u8_cons byte rest)]
      exact later byte rest (Nat.lt_of_succ_lt_succ short)

theorem collect (same : SameBelow bound first second) (shortens : first.Shortens) (count : Nat)
    (done : List α) :
    SameBelow bound (first.collect count done) (second.collect count done) := by
  induction count generalizing done with
  | zero => exact refl _
  | succ count ih => exact same.bind shortens fun value => ih (value :: done)

theorem counted16 (same : SameBelow bound first second) (shortens : first.Shortens) :
    SameBelow bound (Reader.counted16 first) (Reader.counted16 second) :=
  (refl u16).bind shortens_u16 fun count => same.collect shortens count.toNat []

end SameBelow

end Reader

/-! ## What is written -/

theorem ConstantKind.eq_tag_of_ofTag? {tag : Char} {kind : ConstantKind}
    (found : ofTag? tag = some kind) : tag = kind.tag := by
  unfold ofTag? at found
  split at found <;> cases found <;> rfl

/-- The byte that an element value starts with. -/
def tagByte (tag : Char) : UInt8 :=
  UInt8.ofNat tag.toNat

@[simp]
theorem tagByte_ofNat (byte : UInt8) : tagByte (Char.ofNat byte.toNat) = byte := by
  have valid : byte.toNat.isValidChar := .inl (Nat.lt_trans byte.toNat_lt (by decide))
  rw [tagByte, Char.toNat_ofNat, if_pos valid, UInt8.ofNat_toNat]

mutual

/-- The encoding of an element value: its tag and what belongs to it. -/
def ElementValue.toBytes : ElementValue → Bytes
  | .constant kind index => tagByte kind.tag :: Bytes.ofUInt16 index
  | .enumConstant typeName constantName =>
      tagByte 'e' :: (Bytes.ofUInt16 typeName ++ Bytes.ofUInt16 constantName)
  | .classInfo index => tagByte 'c' :: Bytes.ofUInt16 index
  | .nested value => tagByte '@' :: value.toBytes
  | .array values => tagByte '[' :: (Bytes.count16 values ++ ElementValue.allBytes values)

/-- The encoding of an annotation: its type and its counted elements. -/
def AnnotationEntry.toBytes : AnnotationEntry → Bytes
  | .mk type elements =>
      Bytes.ofUInt16 type ++ (Bytes.count16 elements ++ AnnotationEntry.elementBytes elements)

/-- The encodings of element values in a row. -/
def ElementValue.allBytes : List ElementValue → Bytes
  | [] => []
  | value :: values => value.toBytes ++ ElementValue.allBytes values

/-- The encodings of named element values in a row. -/
def AnnotationEntry.elementBytes : List (UInt16 × ElementValue) → Bytes
  | [] => []
  | (name, value) :: elements =>
      Bytes.ofUInt16 name ++ value.toBytes ++ AnnotationEntry.elementBytes elements

end

@[simp]
theorem ElementValue.toBytes_array (values : List ElementValue) :
    (array values).toBytes = [tagByte '['] ++ Bytes.counted16 toBytes values := by
  have inRow : allBytes values = values.flatMap toBytes := by
    induction values with
    | nil => rfl
    | cons value values ih => rw [allBytes, ih, List.flatMap_cons]
  rw [toBytes, inRow]
  rfl

/-- The encoding of a named element value. -/
def AnnotationEntry.pairBytes (element : UInt16 × ElementValue) : Bytes :=
  Bytes.ofUInt16 element.1 ++ element.2.toBytes

@[simp]
theorem AnnotationEntry.toBytes_mk (type : UInt16) (elements : List (UInt16 × ElementValue)) :
    (mk type elements).toBytes = Bytes.ofUInt16 type ++ Bytes.counted16 pairBytes elements := by
  have inRow : elementBytes elements = elements.flatMap pairBytes := by
    induction elements with
    | nil => rfl
    | cons element elements ih => rw [elementBytes, ih, List.flatMap_cons, pairBytes]
  rw [toBytes, inRow]
  rfl

example : (AnnotationEntry.mk 5 [(6, .array [.constant .int 7, .nested (.mk 8 [])])]).toBytes =
    [0, 5, 0, 1, 0, 6, 0x5b, 0, 2, 0x49, 0, 7, 0x40, 0, 8, 0, 0] := by
  decide

/-- Every list in an element value can be counted by 16 bits. -/
inductive ElementValue.Fits : ElementValue → Prop
  | constant (kind : ConstantKind) (index : UInt16) : Fits (.constant kind index)
  | enumConstant (typeName constantName : UInt16) : Fits (.enumConstant typeName constantName)
  | classInfo (index : UInt16) : Fits (.classInfo index)
  | nested {type : UInt16} {elements : List (UInt16 × ElementValue)}
      (few : elements.length ≤ 65535) (each : ∀ element ∈ elements, element.2.Fits) :
      Fits (.nested (.mk type elements))
  | array {values : List ElementValue} (few : values.length ≤ 65535)
      (each : ∀ value ∈ values, value.Fits) : Fits (.array values)

/-- Every list in an annotation can be counted by 16 bits. -/
def AnnotationEntry.Fits (entry : AnnotationEntry) : Prop :=
  entry.elements.length ≤ 65535 ∧ ∀ element ∈ entry.elements, element.2.Fits

theorem ElementValue.Fits.ofEntry {entry : AnnotationEntry} (fits : entry.Fits) :
    Fits (.nested entry) := by
  cases entry with
  | mk type elements => exact .nested fits.1 fits.2

/-! ## One level -/

namespace ElementValue

/-- An element value whose nested values are read by `value`. -/
def readLevel (value : Reader ElementValue) : Reader ElementValue := do
  let tag ← u8
  readFields value (Char.ofNat tag.toNat)

end ElementValue

section Level

variable {value first second : Reader ElementValue} {bound : Nat}

/-- An annotation is read back if its element values are. -/
theorem AnnotationEntry.reads_readWith {type : UInt16} {elements : List (UInt16 × ElementValue)}
    (few : elements.length ≤ 65535)
    (each : ∀ element ∈ elements, value.Reads element.2.toBytes element.2) :
    (readWith value).Reads (mk type elements).toBytes (mk type elements) := by
  rw [toBytes_mk]
  refine (reads_u16 type).bind (Reads.bind_pure (reads_counted16 few fun element isElement => ?_))
  exact (reads_u16 element.1).bind (each element isElement).bind_pure

theorem AnnotationEntry.consumes_readWith
    (nested : value.Consumes [] fun value taken => value.Fits ∧ taken = value.toBytes) :
    (readWith value).Consumes [] fun entry taken => entry.Fits ∧ taken = entry.toBytes := by
  have pair : Consumes (do let name ← u16; return (name, ← value)) []
      fun element taken => element.2.Fits ∧ taken = pairBytes element := by
    refine exact_u16.bind fun name => nested.bind ?_
    rintro value _ ⟨fits, rfl⟩
    exact consumes_pure ⟨fits, rfl⟩
  refine exact_u16.bind fun type => (consumes_counted16 pair).bind ?_
  rintro elements _ ⟨fits, rfl⟩
  exact consumes_pure ⟨fits, (toBytes_mk type elements).symm⟩

theorem AnnotationEntry.sameBelow_readWith (same : SameBelow bound first second)
    (shortens : first.Shortens) : SameBelow bound (readWith first) (readWith second) := by
  refine (SameBelow.refl u16).bind shortens_u16 fun type => SameBelow.bind_pure ?_ _
  refine SameBelow.counted16 ?_ ?_
  · exact (SameBelow.refl u16).bind shortens_u16 fun name => same.bind_pure _
  · exact shortens_u16.bind fun name => shortens.bind fun value => shortens_pure (name, value)

namespace ElementValue

theorem sameBelow_readLevel (same : SameBelow bound first second) (shortens : first.Shortens) :
    SameBelow (bound + 1) (readLevel first) (readLevel second) := by
  refine SameBelow.u8_bind fun byte => ?_
  unfold readFields
  split
  · exact SameBelow.refl _
  · split
    · exact SameBelow.refl _
    split
    · exact SameBelow.refl _
    split
    · exact (AnnotationEntry.sameBelow_readWith same shortens).bind_pure _
    split
    · exact (same.counted16 shortens).bind_pure _
    · exact SameBelow.refl _

theorem consumes_readLevel
    (nested : value.Consumes [] fun value taken => value.Fits ∧ taken = value.toBytes) :
    (readLevel value).Consumes [] fun value taken => value.Fits ∧ taken = value.toBytes := by
  refine exact_u8.bind fun byte => ?_
  -- The character of the first byte decides, and the byte is written for it.
  have isByte := tagByte_ofNat byte
  generalize Char.ofNat byte.toNat = tag at isByte
  subst isByte
  unfold readFields
  split
  · next kind found =>
      cases ConstantKind.eq_tag_of_ofTag? found
      exact exact_u16.bind fun index => consumes_pure ⟨.constant kind index, rfl⟩
  · split
    · next isTag =>
        subst isTag
        exact exact_u16.bind fun typeName => exact_u16.bind fun constantName =>
          consumes_pure ⟨.enumConstant typeName constantName, rfl⟩
    split
    · next isTag =>
        subst isTag
        exact exact_u16.bind fun index => consumes_pure ⟨.classInfo index, rfl⟩
    split
    · next isTag =>
        subst isTag
        refine (AnnotationEntry.consumes_readWith nested).bind ?_
        rintro entry _ ⟨fits, rfl⟩
        exact consumes_pure ⟨.ofEntry fits, rfl⟩
    split
    · next isTag =>
        subst isTag
        refine (consumes_counted16 nested).bind ?_
        rintro values _ ⟨⟨few, each⟩, rfl⟩
        exact consumes_pure ⟨.array few each, (toBytes_array values).symm⟩
    · exact consumes_fail

end ElementValue

end Level

/-! ## All levels -/

namespace ElementValue

theorem consumes_readNested (depth : Nat) :
    (readNested depth).Consumes [] fun value taken => value.Fits ∧ taken = value.toBytes := by
  induction depth with
  | zero => exact consumes_fail
  | succ depth ih => exact consumes_readLevel ih

/-- The bound on the depth does not matter as long as there are fewer bytes. -/
theorem sameBelow_readNested (depth more : Nat) :
    SameBelow depth (readNested depth) (readNested (depth + more)) := by
  induction depth with
  | zero => exact fun input short => absurd short (Nat.not_lt_zero _)
  | succ depth ih =>
      rw [Nat.add_right_comm]
      exact sameBelow_readLevel ih (consumes_readNested depth).shortens

theorem sameBelow_read (depth : Nat) : SameBelow depth read (readNested depth) := by
  intro input short
  rcases Nat.exists_eq_add_of_le (Nat.succ_le_of_lt short) with ⟨more, rfl⟩
  exact sameBelow_readNested (input.length + 1) more input (Nat.lt_succ_self _)

theorem consumes_read :
    read.Consumes [] fun value taken => value.Fits ∧ taken = value.toBytes :=
  fun input => consumes_readNested (input.length + 1) input

/-- Values are read level by level, with no bound on the depth. -/
theorem read_eq : read = readLevel read := by
  funext input
  have same := sameBelow_readLevel (sameBelow_read input.length) consumes_read.shortens
  exact (same input (Nat.lt_succ_self _)).symm

/-- There is one reader of all levels. -/
theorem eq_read_iff {reader : Reader ElementValue} : reader = read ↔ reader = readLevel reader := by
  constructor
  · rintro rfl
    exact read_eq
  · intro isFixed
    have same (bound : Nat) : SameBelow bound read reader := by
      induction bound with
      | zero => exact fun input short => absurd short (Nat.not_lt_zero _)
      | succ bound ih =>
          rw [read_eq, isFixed]
          exact sameBelow_readLevel ih consumes_read.shortens
    funext input
    exact (same (input.length + 1) input (Nat.lt_succ_self _)).symm

/-- An element value is read back. -/
theorem reads_toBytes {value : ElementValue} (fits : value.Fits) :
    read.Reads value.toBytes value := by
  induction fits with
  | constant kind index =>
      rw [read_eq]
      refine (reads_u8 _).bind ?_
      cases kind <;> exact (reads_u16 index).bind_pure
  | enumConstant typeName constantName =>
      rw [read_eq]
      exact (reads_u8 _).bind ((reads_u16 typeName).bind (reads_u16 constantName).bind_pure)
  | classInfo index =>
      rw [read_eq]
      exact (reads_u8 _).bind (reads_u16 index).bind_pure
  | nested few _ ih =>
      rw [read_eq]
      exact (reads_u8 _).bind (AnnotationEntry.reads_readWith few ih).bind_pure
  | @array values few _ ih =>
      rw [read_eq, toBytes_array]
      exact (reads_u8 _).bind (reads_counted16 few ih).bind_pure

end ElementValue

namespace AnnotationEntry

theorem read_eq : read = readWith ElementValue.read := by
  funext input
  have nested := ElementValue.sameBelow_read (input.length + 1)
  exact (sameBelow_readWith nested ElementValue.consumes_read.shortens input
    (Nat.lt_succ_self _)).symm

theorem consumes_read :
    read.Consumes [] fun entry taken => entry.Fits ∧ taken = entry.toBytes := by
  rw [read_eq]
  exact consumes_readWith ElementValue.consumes_read

/-- An annotation is read back. -/
theorem reads_toBytes {entry : AnnotationEntry} (fits : entry.Fits) :
    read.Reads entry.toBytes entry := by
  rw [read_eq]
  cases entry with
  | mk type elements =>
      exact reads_readWith fits.1 fun element isElement =>
        ElementValue.reads_toBytes (fits.2 element isElement)

end AnnotationEntry

/-- Element values, annotations and tables of annotations are read at the front of some
bytes exactly if their lists can be counted, at every depth, and the bytes are what is
written for them, followed by what is left. How deep they are nested is no matter: reading
level by level defines one reader. -/
theorem annotations_eq_ok_iff (input rest : Bytes) :
    (∀ value : ElementValue, ElementValue.read input = .ok (value, rest) ↔
      value.Fits ∧ input = value.toBytes ++ rest) ∧
    (∀ entry : AnnotationEntry, AnnotationEntry.read input = .ok (entry, rest) ↔
      entry.Fits ∧ input = entry.toBytes ++ rest) ∧
    (∀ table : List AnnotationEntry, AnnotationEntry.readTable input = .ok (table, rest) ↔
      (table.length ≤ 65535 ∧ ∀ entry ∈ table, entry.Fits) ∧
        input = Bytes.counted16 AnnotationEntry.toBytes table ++ rest) ∧
    AnnotationEntry.read = AnnotationEntry.readWith ElementValue.read ∧
    ∀ reader : Reader ElementValue,
      reader = ElementValue.read ↔ reader = ElementValue.readLevel reader := by
  refine ⟨fun value => ?_, fun entry => ?_, fun table => ?_, AnnotationEntry.read_eq,
    fun reader => ElementValue.eq_read_iff⟩
  · exact Reader.eq_ok_iff (fun _ => ElementValue.reads_toBytes) ElementValue.consumes_read
  · exact Reader.eq_ok_iff (fun _ => AnnotationEntry.reads_toBytes) AnnotationEntry.consumes_read
  · exact Reader.eq_ok_iff
      (fun _ fits => reads_counted16 fits.1 fun entry isEntry =>
        AnnotationEntry.reads_toBytes (fits.2 entry isEntry))
      (consumes_counted16 AnnotationEntry.consumes_read)

end ValueForm
