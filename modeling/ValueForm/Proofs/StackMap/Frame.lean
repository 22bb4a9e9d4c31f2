import ValueForm.StackMap.Frame
import ValueForm.Proofs.Reader

/-!
# Frames read back

A frame is read back from its encoding if it fits the format: an appending frame
has one to three locals, and the locals and the stack of a full frame can be
counted. The first byte alone tells the seven shapes apart. What is read fits, and
takes up what is written for it.
-/

namespace ValueForm

open Reader

namespace VerificationType

/-- A type is read back. -/
theorem reads_toBytes (type : VerificationType) : read.Reads type.toBytes type := by
  intro rest
  cases type with
  | object classIndex => exact (reads_u16 classIndex).bind_pure rest
  | uninitialized address => exact (reads_u16 address).bind_pure rest
  | _ => rfl

theorem reads_counted16 {types : List VerificationType} (few : types.length ≤ 65535) :
    (counted16 read).Reads (Bytes.counted16 toBytes types) types :=
  Reader.reads_counted16 few fun type _ => type.reads_toBytes

/-- A type takes up what is written for it. -/
theorem exact_read : read.Exact toBytes := by
  apply Consumes.exact
  apply consumes_remaining_bind
  intro start
  refine exact_u8.bind fun tag => ?_
  generalize isNumber : tag.toNat = number
  obtain rfl : UInt8.ofNat number = tag := isNumber ▸ UInt8.ofNat_toNat
  clear isNumber
  match number with
  | 0 | 1 | 2 | 3 | 4 | 5 | 6 => exact consumes_pure rfl
  | 7 | 8 => exact exact_u16.bind fun _ => consumes_pure rfl
  | _ + 9 =>
      intro input value rest succeeded
      cases succeeded

end VerificationType

namespace StackMapFrame

/-- The lists of a frame fit its shape and the fields that count them. -/
def Fits : StackMapFrame → Prop
  | .append _ locals => 1 ≤ locals.length ∧ locals.length ≤ 3
  | .full _ locals stack => locals.length ≤ 65535 ∧ stack.length ≤ 65535
  | _ => True

/-- The first byte of a frame as a number. -/
def code : StackMapFrame → Nat
  | .same delta => delta.val
  | .sameItem delta _ => 64 + delta.val
  | .sameItemExtended .. => 247
  | .chop extra _ => 250 - extra.val
  | .sameExtended _ => 251
  | .append _ locals => 251 + locals.length
  | .full .. => 255

@[simp]
theorem toNat_tag {frame : StackMapFrame} (fits : frame.Fits) : frame.tag.toNat = frame.code := by
  cases frame with
  | same delta => exact UInt8.toNat_ofNat_of_lt' (Nat.lt_trans delta.isLt (by decide))
  | sameItem delta item =>
      have bound := delta.isLt
      exact UInt8.toNat_ofNat_of_lt' (by simp [UInt8.size]; omega)
  | chop extra delta => exact UInt8.toNat_ofNat_of_lt' (by simp [UInt8.size]; omega)
  | append delta locals =>
      have few := fits.2
      exact UInt8.toNat_ofNat_of_lt' (by simp [UInt8.size]; omega)
  | _ => rfl

/-- What follows the first byte of a frame is read back. -/
theorem reads_fields {frame : StackMapFrame} (fits : frame.Fits) {tag : UInt8}
    (isCode : tag.toNat = frame.code) :
    (readFields tag).Reads frame.toBytes.tail frame := by
  unfold readFields
  dsimp only
  cases frame with
  | same delta =>
      have small : tag.toNat < 64 := isCode ▸ delta.isLt
      have isDelta : (⟨tag.toNat, small⟩ : Fin 64) = delta := Fin.ext isCode
      rw [dif_pos small, isDelta]
      exact fun rest => rfl
  | sameItem delta item =>
      have isDelta (small : tag.toNat - 64 < 64) : (⟨tag.toNat - 64, small⟩ : Fin 64) = delta :=
        Fin.ext (by simp only [isCode, code]; omega)
      simp only [code] at isCode
      rw [dif_neg (by omega), dif_pos (by omega), isDelta]
      exact item.reads_toBytes.bind_pure
  | sameItemExtended delta item =>
      simp only [code] at isCode
      rw [dif_neg (by omega), dif_neg (by omega), dif_neg (by omega), dif_pos isCode]
      exact (reads_u16 delta).bind item.reads_toBytes.bind_pure
  | chop extra delta =>
      have isExtra (small : 250 - tag.toNat < 3) : (⟨250 - tag.toNat, small⟩ : Fin 3) = extra :=
        Fin.ext (by simp only [isCode, code]; omega)
      simp only [code] at isCode
      rw [dif_neg (by omega), dif_neg (by omega), dif_neg (by omega), dif_neg (by omega),
        dif_pos (by omega), isExtra]
      exact (reads_u16 delta).bind_pure
  | sameExtended delta =>
      simp only [code] at isCode
      rw [dif_neg (by omega), dif_neg (by omega), dif_neg (by omega), dif_neg (by omega),
        dif_neg (by omega), if_pos isCode]
      exact (reads_u16 delta).bind_pure
  | append delta locals =>
      rcases fits with ⟨many, few⟩
      simp only [code] at isCode
      have count : tag.toNat - 251 = locals.length := by omega
      rw [dif_neg (by omega), dif_neg (by omega), dif_neg (by omega), dif_neg (by omega),
        dif_neg (by omega), if_neg (by omega), if_pos (by omega), count]
      have reads : (times locals.length VerificationType.read).Reads
          (locals.flatMap VerificationType.toBytes) locals :=
        times_flatMap fun type _ => type.reads_toBytes
      exact (reads_u16 delta).bind reads.bind_pure
  | full delta locals stack =>
      simp only [code] at isCode
      rw [dif_neg (by omega), dif_neg (by omega), dif_neg (by omega), dif_neg (by omega),
        dif_neg (by omega), if_neg (by omega), if_neg (by omega)]
      rw [toBytes, List.tail_cons, List.append_assoc]
      exact (reads_u16 delta).bind ((VerificationType.reads_counted16 fits.1).bind
        (VerificationType.reads_counted16 fits.2).bind_pure)

/-- A frame is read back. -/
theorem reads_toBytes {frame : StackMapFrame} (fits : frame.Fits) :
    read.Reads frame.toBytes frame :=
  (reads_u8 frame.tag).bind (reads_fields fits (toNat_tag fits))

@[simp]
theorem ofNat_code (frame : StackMapFrame) : UInt8.ofNat frame.code = frame.tag := by
  cases frame <;> rfl

/-- The fields of a frame behind its first byte are what is written for it. -/
theorem written_of_code {frame : StackMapFrame} {tag : UInt8} {fields : Bytes}
    (isCode : frame.code = tag.toNat) (isRest : fields = frame.toBytes.tail) :
    [tag] ++ fields = frame.toBytes := by
  have isTag : frame.tag = tag := by
    rw [← frame.ofNat_code, isCode, UInt8.ofNat_toNat]
  rw [isRest, ← isTag]
  rfl

/-- What the fields of a frame are read from, behind its first byte, is written for
it. -/
theorem consumes_readFields (tag : UInt8) :
    (readFields tag).Consumes [tag] fun frame taken => frame.Fits ∧ taken = frame.toBytes := by
  have types := VerificationType.exact_read
  unfold readFields
  dsimp only
  split
  · exact consumes_pure ⟨trivial, written_of_code rfl rfl⟩
  split
  · refine types.bind fun item => consumes_pure ⟨trivial, written_of_code ?_ rfl⟩
    simp only [code]
    omega
  split
  · exact consumes_fail
  split
  · next isCode =>
      refine exact_u16.bind fun delta => types.bind fun item => ?_
      exact consumes_pure ⟨trivial, written_of_code isCode.symm rfl⟩
  split
  · refine exact_u16.bind fun delta => consumes_pure ⟨trivial, written_of_code ?_ rfl⟩
    simp only [code]
    omega
  split
  · next isCode =>
      refine exact_u16.bind fun delta => ?_
      exact consumes_pure ⟨trivial, written_of_code isCode.symm rfl⟩
  split
  · refine exact_u16.bind fun delta => (consumes_times types _).bind ?_
    rintro locals _ ⟨count, rfl⟩
    refine consumes_pure ⟨?_, written_of_code ?_ rfl⟩
    · simp only [Fits]
      omega
    · simp only [code]
      omega
  · refine exact_u16.bind fun delta => types.consumes_counted16.bind ?_
    rintro locals _ ⟨fewLocals, rfl⟩
    refine types.consumes_counted16.bind ?_
    rintro stack _ ⟨fewStack, rfl⟩
    have isCode : (full delta locals stack).code = tag.toNat := by
      have small := tag.toNat_lt
      simp only [code]
      omega
    refine consumes_pure ⟨⟨fewLocals, fewStack⟩, ?_⟩
    rw [List.append_assoc, List.append_assoc, ← List.append_assoc (Bytes.ofUInt16 delta)]
    exact written_of_code isCode rfl

theorem consumes_read :
    read.Consumes [] fun frame taken => frame.Fits ∧ taken = frame.toBytes :=
  exact_u8.bind consumes_readFields

/-- A table is read back. -/
theorem reads_tableBytes {table : List StackMapFrame} (few : table.length ≤ 65535)
    (fits : ∀ frame ∈ table, frame.Fits) : readTable.Reads (tableBytes table) table :=
  reads_counted16 few fun frame found => reads_toBytes (fits frame found)

/-- A table is read from exactly what is written for it, if its frames fit. -/
theorem readTable_eq_ok_iff {input rest : Bytes} {table : List StackMapFrame} :
    readTable input = .ok (table, rest) ↔
      (table.length ≤ 65535 ∧ ∀ frame ∈ table, frame.Fits) ∧
        input = tableBytes table ++ rest :=
  Reader.eq_ok_iff (fun _ fits => reads_tableBytes fits.1 fits.2)
    (consumes_counted16 consumes_read)

/-- The first bytes that belong to the shape of a frame. -/
def tags : StackMapFrame → Set Nat
  | .same _ => Set.Icc 0 63
  | .sameItem .. => Set.Icc 64 127
  | .sameItemExtended .. => {247}
  | .chop .. => Set.Icc 248 250
  | .sameExtended _ => {251}
  | .append .. => Set.Icc 252 254
  | .full .. => {255}

theorem tag_mem_tags {frame : StackMapFrame} (fits : frame.Fits) :
    frame.tag.toNat ∈ frame.tags := by
  rw [toNat_tag fits]
  cases frame with
  | append delta locals =>
      simp only [Fits] at fits
      simp only [code, tags, Set.mem_Icc]
      omega
  | same delta | sameItem delta item | chop delta extra =>
      simp only [code, tags, Set.mem_Icc]
      omega
  | _ => rfl

end StackMapFrame

end ValueForm
