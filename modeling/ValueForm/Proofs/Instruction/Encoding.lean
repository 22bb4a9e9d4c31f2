import ValueForm.Instruction.Codec
import ValueForm.Proofs.Reader

/-!
# Instructions read back

Every instruction whose table has the length its bounds call for is read back
from its encoding, whatever follows, and its encoding is as long as its size at
the address.
-/

namespace ValueForm

namespace Instruction

/-- The table of a switch has as many entries as its encoding announces. -/
def WellFormed : Instruction → Prop
  | .tableSwitch _ low high offsets => tableLength? low high = some offsets.length
  | .lookupSwitch _ pairs => pairs.length < 2 ^ 32
  | _ => True

/-! ## Opcodes -/

theorem ofOpcode?_eq_find? (code : UInt8) :
    ofOpcode? code = operandFree.find? fun instruction => instruction.opcode == code.toNat := by
  have inRange : code.toNat < 256 := code.toNat_lt
  simp [ofOpcode?, opcodeTable, inRange]

/-- An instruction without operands is found by its opcode. -/
theorem ofOpcode?_of_mem {instruction : Instruction} (free : instruction ∈ operandFree) :
    ofOpcode? (UInt8.ofNat instruction.opcode) = some instruction := by
  have found : ∀ instruction ∈ operandFree, operandFree.find? (fun other =>
      other.opcode == (UInt8.ofNat instruction.opcode).toNat) = some instruction := by
    decide +kernel
  rw [ofOpcode?_eq_find?]
  exact found instruction free

/-- The opcodes that operands follow, and the marker of wide slots. -/
def operandOpcodes : List Nat :=
  [0x10, 0x11, 0x12, 0x13, 0x14, 0x15, 0x16, 0x17, 0x18, 0x19, 0x36, 0x37, 0x38, 0x39, 0x3a, 0x84,
    0x99, 0x9a, 0x9b, 0x9c, 0x9d, 0x9e, 0x9f, 0xa0, 0xa1, 0xa2, 0xa3, 0xa4, 0xa5, 0xa6, 0xa7, 0xa8,
    0xa9, 0xaa, 0xab, 0xb2, 0xb3, 0xb4, 0xb5, 0xb6, 0xb7, 0xb8, 0xb9, 0xba, 0xbb, 0xbc, 0xbd, 0xc0,
    0xc1, 0xc4, 0xc5, 0xc6, 0xc7, 0xc8, 0xc9, 0xcb, 0xcc, 0xd8, 0xd9]

theorem ofOpcode?_of_mem_operandOpcodes {code : Nat} (has : code ∈ operandOpcodes) :
    ofOpcode? (UInt8.ofNat code) = none := by
  have missing : ∀ code ∈ operandOpcodes,
      operandFree.find? (fun other => other.opcode == (UInt8.ofNat code).toNat) = none := by
    decide +kernel
  rw [ofOpcode?_eq_find?]
  exact missing code has

/-- An instruction whose encoding is its opcode. -/
theorem read_of_free {instruction : Instruction} (free : instruction ∈ operandFree)
    (address : Nat) (rest : Bytes) :
    read address (UInt8.ofNat instruction.opcode :: rest) = .ok (instruction, rest) := by
  rw [read, Reader.bind_of_ok (Reader.u8_cons _ rest), ofOpcode?_of_mem free]
  rfl

/-- An opcode that operands follow. -/
theorem read_of_operands {code : Nat} (has : code ∈ operandOpcodes) (address : Nat)
    (input : Bytes) :
    read address (UInt8.ofNat code :: input) = readOperands address (UInt8.ofNat code) input := by
  rw [read, Reader.bind_of_ok (Reader.u8_cons _ input), ofOpcode?_of_mem_operandOpcodes has]

/-- A wide slot is announced by its marker. -/
@[simp]
theorem read_wide (address : Nat) (input : Bytes) :
    read address (wideMarker :: input) = readWideForm input :=
  read_of_operands (by decide : 0xc4 ∈ operandOpcodes) address input

/-! ## Operands -/

@[simp]
theorem readInt16_int16Bytes (value : Int16) (rest : Bytes) :
    readInt16 (int16Bytes value ++ rest) = .ok (value, rest) := by
  rw [readInt16, int16Bytes, Reader.bind_of_ok (Reader.u16_ofUInt16 _ rest)]
  simp

@[simp]
theorem readInt32_int32Bytes (value : Int32) (rest : Bytes) :
    readInt32 (int32Bytes value ++ rest) = .ok (value, rest) := by
  rw [readInt32, int32Bytes, Reader.bind_of_ok (Reader.u32_ofUInt32 _ rest)]
  simp

@[simp]
theorem readIndexed_ofUInt16 (make : UInt16 → Instruction) (index : UInt16) (rest : Bytes) :
    readIndexed make (Bytes.ofUInt16 index ++ rest) = .ok (make index, rest) := by
  rw [readIndexed, Reader.bind_of_ok (Reader.u16_ofUInt16 index rest), Reader.pure_apply]

@[simp]
theorem readBranch_int16Bytes (test : BranchTest) (offset : Int16) (rest : Bytes) :
    readBranch test (int16Bytes offset ++ rest) = .ok (.branch test offset, rest) := by
  rw [readBranch, Reader.bind_of_ok (readInt16_int16Bytes offset rest), Reader.pure_apply]

/-- An instruction with a slot is read back, if the readers of its narrow and
wide forms are those of its opcode. -/
theorem read_slotBytes {make : SlotOperand → Instruction} {code address : Nat}
    (has : code ∈ operandOpcodes)
    (narrow : readOperands address (UInt8.ofNat code) = do return make (← readNarrow))
    (wide : ∀ input, readWideForm (UInt8.ofNat code :: input) =
      (do return make (← readWide) : Reader Instruction) input)
    (slot : SlotOperand) (rest : Bytes) :
    read address (slotBytes (UInt8.ofNat code) slot ++ rest) = .ok (make slot, rest) := by
  cases slot with
  | narrow slot =>
      rw [slotBytes, List.cons_append, read_of_operands has, narrow]
      rfl
  | wide slot =>
      have reads : readWide (Bytes.ofUInt16 slot ++ rest) = .ok (.wide slot, rest) := by
        rw [readWide, Reader.bind_of_ok (Reader.u16_ofUInt16 slot rest), Reader.pure_apply]
      rw [slotBytes, List.cons_append, read_wide, List.cons_append, wide,
        Reader.bind_of_ok reads, Reader.pure_apply]

/-! ## Switches -/

/-- The padding of a switch is skipped. -/
@[simp]
theorem discard_padding (address : Nat) (rest : Bytes) :
    (discard (Reader.take (padding address)) : Reader PUnit)
      (List.replicate (padding address) 0 ++ rest) = .ok ((), rest) := by
  have taken := Reader.take_append (List.replicate (padding address) 0) rest
  rw [List.length_replicate] at taken
  exact Reader.bind_of_ok taken

theorem readTableSwitch_append {fallback low high : Int32} {offsets : List Int32}
    (known : tableLength? low high = some offsets.length) (address : Nat) (rest : Bytes) :
    readTableSwitch address (List.replicate (padding address) 0 ++ int32Bytes fallback ++
        int32Bytes low ++ int32Bytes high ++ offsets.flatMap int32Bytes ++ rest) =
      .ok (.tableSwitch fallback low high offsets, rest) := by
  simp only [List.append_assoc]
  rw [readTableSwitch, Reader.bind_of_ok (discard_padding address _),
    Reader.bind_of_ok (readInt32_int32Bytes fallback _),
    Reader.bind_of_ok (readInt32_int32Bytes low _),
    Reader.bind_of_ok (readInt32_int32Bytes high _), known]
  exact Reader.bind_of_ok (Reader.times_flatMap (fun offset _ => readInt32_int32Bytes offset) rest)

theorem readLookupSwitch_append {fallback : Int32} {pairs : List (Int32 × Int32)}
    (few : pairs.length < 2 ^ 32) (address : Nat) (rest : Bytes) :
    readLookupSwitch address (List.replicate (padding address) 0 ++ int32Bytes fallback ++
        Bytes.ofUInt32 (UInt32.ofNat pairs.length) ++
        pairs.flatMap (fun (key, offset) => int32Bytes key ++ int32Bytes offset) ++ rest) =
      .ok (.lookupSwitch fallback pairs, rest) := by
  have readsPair (pair : Int32 × Int32) (rest : Bytes) :
      (do
        let key ← readInt32
        return (key, ← readInt32) : Reader (Int32 × Int32))
          (int32Bytes pair.1 ++ int32Bytes pair.2 ++ rest) = .ok (pair, rest) := by
    rw [List.append_assoc, Reader.bind_of_ok (readInt32_int32Bytes pair.1 _),
      Reader.bind_of_ok (readInt32_int32Bytes pair.2 rest)]
    rfl
  have count : (UInt32.ofNat pairs.length).toNat = pairs.length :=
    UInt32.toNat_ofNat_of_lt' few
  simp only [List.append_assoc]
  rw [readLookupSwitch, Reader.bind_of_ok (discard_padding address _),
    Reader.bind_of_ok (readInt32_int32Bytes fallback _),
    Reader.bind_of_ok (Reader.u32_ofUInt32 _ _), count]
  exact Reader.bind_of_ok (Reader.times_flatMap (fun pair _ => readsPair pair) rest)

/-! ## All instructions -/

/-- An instruction is read back from its encoding. -/
theorem read_toBytes {instruction : Instruction} (wellFormed : instruction.WellFormed)
    (address : Nat) (rest : Bytes) :
    read address (instruction.toBytes address ++ rest) = .ok (instruction, rest) := by
  cases instruction with
  | nop | arrayLength | athrow | monitorEnter | monitorExit | valueArrayLoad | valueArrayStore =>
      exact read_of_free (by simp [operandFree]) address rest
  | const kind | arrayLoad kind | arrayStore kind | stack kind | negate kind | convert kind
  | compare kind | leave kind =>
      exact read_of_free (by cases kind <;> decide) address rest
  | binary op kind | bitwise op kind =>
      exact read_of_free (by cases op <;> cases kind <;> decide) address rest
  | loadShort kind slot =>
      have free : ∀ slot, Instruction.loadShort kind slot ∈ operandFree := by cases kind <;> decide
      exact read_of_free (free slot) address rest
  | storeShort kind slot =>
      have free : ∀ slot, Instruction.storeShort kind slot ∈ operandFree := by cases kind <;> decide
      exact read_of_free (free slot) address rest
  | load kind slot =>
      cases kind <;> exact read_slotBytes (by simp [opcode, LocalKind.code, operandOpcodes]) rfl
        (fun _ => rfl) slot rest
  | store kind slot =>
      cases kind <;> exact read_slotBytes (by simp [opcode, LocalKind.code, operandOpcodes]) rfl
        (fun _ => rfl) slot rest
  | ret slot | valueLoad slot | valueStore slot =>
      exact read_slotBytes (by simp [opcode, operandOpcodes]) rfl (fun _ => rfl) slot rest
  | ldcWide index | ldc2 index | getStatic index | putStatic index | getField index
  | putField index | invokeVirtual index | invokeSpecial index | invokeStatic index | new index
  | newReferenceArray index | checkCast index | instanceOf index | box index | unbox index =>
      exact (read_of_operands (by simp [opcode, operandOpcodes]) address _).trans
        (readIndexed_ofUInt16 _ index rest)
  | branch test offset =>
      refine (read_of_operands ?_ address _).trans ?_
      · cases test <;> simp [opcode, BranchTest.opcode, operandOpcodes]
      · cases test <;> exact readBranch_int16Bytes _ offset rest
  | bipush value =>
      refine (read_of_operands (by simp [opcode, operandOpcodes]) address _).trans ?_
      rw [show value = value.toUInt8.toInt8 by simp]
      rfl
  | ldc index | newArray index =>
      exact read_of_operands (by simp [opcode, operandOpcodes]) address _
  | increment slot amount =>
      refine (read_of_operands (by simp [opcode, operandOpcodes]) address _).trans ?_
      rw [show amount = amount.toUInt8.toInt8 by simp]
      rfl
  | sipush value | goto value | jsr value =>
      refine (read_of_operands (by simp [opcode, operandOpcodes]) address _).trans ?_
      exact Reader.bind_of_ok (readInt16_int16Bytes value rest)
  | gotoWide value | jsrWide value =>
      refine (read_of_operands (by simp [opcode, operandOpcodes]) address _).trans ?_
      exact Reader.bind_of_ok (readInt32_int32Bytes value rest)
  | incrementWide slot amount =>
      have bytes : (Instruction.incrementWide slot amount).toBytes address ++ rest =
          wideMarker :: UInt8.ofNat 0x84 ::
            (Bytes.ofUInt16 slot ++ (int16Bytes amount ++ rest)) := by
        simp [toBytes, opcode]
      rw [bytes, read_wide, readWideForm, Reader.bind_of_ok (Reader.u8_cons _ _)]
      refine (Reader.bind_of_ok (Reader.u16_ofUInt16 slot _)).trans ?_
      exact Reader.bind_of_ok (readInt16_int16Bytes amount rest)
  | invokeInterface index count filler =>
      have bytes : (Instruction.invokeInterface index count filler).toBytes address ++ rest =
          UInt8.ofNat 0xb9 :: (Bytes.ofUInt16 index ++ count :: filler :: rest) := by
        simp [toBytes, opcode]
      rw [bytes, read_of_operands (by decide)]
      exact Reader.bind_of_ok (Reader.u16_ofUInt16 index _)
  | newMultiArray index dimensions =>
      have bytes : (Instruction.newMultiArray index dimensions).toBytes address ++ rest =
          UInt8.ofNat 0xc5 :: (Bytes.ofUInt16 index ++ dimensions :: rest) := by
        simp [toBytes, opcode]
      rw [bytes, read_of_operands (by decide)]
      exact Reader.bind_of_ok (Reader.u16_ofUInt16 index _)
  | invokeDynamic index filler =>
      have bytes : (Instruction.invokeDynamic index filler).toBytes address ++ rest =
          UInt8.ofNat 0xba :: (Bytes.ofUInt16 index ++ (Bytes.ofUInt16 filler ++ rest)) := by
        simp [toBytes, opcode]
      rw [bytes, read_of_operands (by decide)]
      refine (Reader.bind_of_ok (Reader.u16_ofUInt16 index _)).trans ?_
      exact Reader.bind_of_ok (Reader.u16_ofUInt16 filler rest)
  | tableSwitch fallback low high offsets =>
      refine (read_of_operands (by simp [opcode, operandOpcodes]) address _).trans ?_
      exact readTableSwitch_append wellFormed address rest
  | lookupSwitch fallback pairs =>
      refine (read_of_operands (by simp [opcode, operandOpcodes]) address _).trans ?_
      exact readLookupSwitch_append wellFormed address rest

theorem length_flatMap_of_length {α : Type} {write : α → Bytes} {width : Nat}
    (each : ∀ item, (write item).length = width) (items : List α) :
    (items.flatMap write).length = width * items.length := by
  induction items with
  | nil => rfl
  | cons item items ih =>
      rw [List.flatMap_cons, List.length_append, each, ih, List.length_cons, Nat.mul_succ,
        Nat.add_comm]

/-- An encoding is as long as its instruction. -/
@[simp]
theorem length_toBytes (address : Nat) (instruction : Instruction) :
    (instruction.toBytes address).length = instruction.size address := by
  have int16 (value : Int16) : (int16Bytes value).length = 2 := Bytes.length_ofUInt16 _
  have int32 (value : Int32) : (int32Bytes value).length = 4 := Bytes.length_ofUInt32 _
  cases instruction with
  | load kind slot | store kind slot | ret slot | valueLoad slot | valueStore slot =>
      cases slot <;> simp [toBytes, slotBytes, size]
  | tableSwitch fallback low high offsets =>
      have table : (offsets.flatMap int32Bytes).length = 4 * offsets.length :=
        length_flatMap_of_length int32 offsets
      simp only [toBytes, size, List.length_cons, List.length_append, List.length_replicate, int32,
        table]
      omega
  | lookupSwitch fallback pairs =>
      have table : (pairs.flatMap fun (key, offset) =>
          int32Bytes key ++ int32Bytes offset).length = 8 * pairs.length :=
        length_flatMap_of_length (by simp [int32]) pairs
      simp only [toBytes, size, List.length_cons, List.length_append, List.length_replicate, int32,
        Bytes.length_ofUInt32, table]
      omega
  | _ => simp [toBytes, size, int16, int32]

/-- Every instruction takes up room. -/
@[simp]
theorem size_pos (address : Nat) (instruction : Instruction) : 0 < instruction.size address := by
  cases instruction with
  | load kind slot | store kind slot | ret slot | valueLoad slot | valueStore slot =>
      cases slot <;> simp [size]
  | tableSwitch fallback low high offsets | lookupSwitch fallback pairs =>
      simp only [size]
      omega
  | _ => simp [size]

end Instruction

end ValueForm
