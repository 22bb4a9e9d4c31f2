import ValueForm.Proofs.Instruction.Placement

/-!
# Code written again

Code that can be taken apart is written again as it was, except between the opcode
of a switch and its operands. The bytes there only align the operands to a
multiple of four; they are skipped when code is read, and 0 is written for them.
Nothing else of the code is lost.
-/

namespace ValueForm

namespace Bytes

/-- The bytes from a position on, with 0 at the marked positions. -/
def blank (marked : Nat → Bool) (start : Nat) (bytes : Bytes) : Bytes :=
  bytes.mapIdx fun offset byte => if marked (start + offset) then 0 else byte

@[simp]
theorem length_blank (marked : Nat → Bool) (start : Nat) (bytes : Bytes) :
    (blank marked start bytes).length = bytes.length :=
  List.length_mapIdx

theorem getElem?_blank (marked : Nat → Bool) (start : Nat) (bytes : Bytes) (offset : Nat) :
    (blank marked start bytes)[offset]? =
      bytes[offset]?.map fun byte => if marked (start + offset) then 0 else byte :=
  List.getElem?_mapIdx

theorem blank_append (marked : Nat → Bool) (start : Nat) (first second : Bytes) :
    blank marked start (first ++ second) =
      blank marked start first ++ blank marked (start + first.length) second := by
  simp [blank, List.mapIdx_append, Nat.add_left_comm, Nat.add_comm]

/-- Only the marks in the range of the bytes matter. -/
theorem blank_congr {marked marked' : Nat → Bool} {start : Nat} {bytes : Bytes}
    (same : ∀ position, start ≤ position → position < start + bytes.length →
      marked position = marked' position) :
    blank marked start bytes = blank marked' start bytes := by
  apply List.ext_getElem?
  intro offset
  rw [getElem?_blank, getElem?_blank]
  by_cases inRange : offset < bytes.length
  · rw [same (start + offset) (Nat.le_add_right _ _) (Nat.add_lt_add_left inRange start)]
  · rw [List.getElem?_eq_none (Nat.le_of_not_lt inRange)]
    rfl

theorem blank_of_unmarked {marked : Nat → Bool} {start : Nat} {bytes : Bytes}
    (unmarked : ∀ position, start ≤ position → position < start + bytes.length →
      marked position = false) :
    blank marked start bytes = bytes := by
  rw [blank_congr unmarked, blank, List.mapIdx_eq_iff]
  simp

theorem blank_of_marked {marked : Nat → Bool} {start : Nat} {bytes : Bytes}
    (all : ∀ position, start ≤ position → position < start + bytes.length →
      marked position = true) :
    blank marked start bytes = List.replicate bytes.length 0 := by
  rw [blank_congr all, blank, List.mapIdx_eq_replicate_iff]
  simp

end Bytes

/-- Whether an instruction is a switch, whose operands are aligned. -/
def Instruction.isSwitch : Instruction → Bool
  | .tableSwitch .. | .lookupSwitch .. => true
  | _ => false

/-- Whether a position is one of the alignment bytes of an instruction: it is a
switch, and the position is behind its opcode in the same group of four bytes. -/
def Located.pads (located : Located) (position : Nat) : Bool :=
  located.instruction.isSwitch &&
    decide (located.address < position ∧ position / 4 = located.address / 4)

theorem Instruction.padding_lt_size {instruction : Instruction}
    (isSwitch : instruction.isSwitch = true) (address : Nat) :
    padding address < instruction.size address := by
  cases instruction with
  | tableSwitch | lookupSwitch =>
      simp only [size]
      omega
  | _ => cases isSwitch

namespace Located

open Instruction

theorem pads_iff {located : Located} (isSwitch : located.instruction.isSwitch = true)
    (position : Nat) :
    located.pads position = true ↔
      located.address < position ∧ position ≤ located.address + padding located.address := by
  simp only [pads, isSwitch, Bool.true_and, decide_eq_true_eq, padding]
  omega

theorem pads_eq_false {located : Located} (isPlain : located.instruction.isSwitch = false)
    (position : Nat) : located.pads position = false := by
  simp [pads, isPlain]

theorem pads_eq_false_of_le_address {located : Located} {position : Nat}
    (before : position ≤ located.address) : located.pads position = false := by
  simp [pads, Nat.not_lt.2 before]

/-- Alignment bytes are bytes of their instruction. -/
theorem pads_eq_false_of_stop_le {located : Located} {position : Nat}
    (behind : located.stop ≤ position) : located.pads position = false := by
  cases isSwitch : located.instruction.isSwitch with
  | false => exact pads_eq_false isSwitch position
  | true =>
      have least := padding_lt_size isSwitch located.address
      rw [stop, size] at behind
      rw [← Bool.not_eq_true, pads_iff isSwitch]
      omega

/-- The bytes an instruction is read from where it lies: those that are written for
it there, but for the alignment bytes, which may be anything. -/
def Spelled (located : Located) (bytes : Bytes) : Prop :=
  located.instruction.toBytes located.address = bytes.blank located.pads located.address

theorem spelled_of_eq {located : Located} {bytes : Bytes}
    (isPlain : located.instruction.isSwitch = false)
    (written : located.instruction.toBytes located.address = bytes) : located.Spelled bytes := by
  rw [Spelled, written, Bytes.blank_of_unmarked fun position _ _ => pads_eq_false isPlain position]

/-- A switch is spelled with any bytes between its opcode and its operands. -/
theorem spelled_switch {located : Located} {code : UInt8} {alignment operands : Bytes}
    (isSwitch : located.instruction.isSwitch = true)
    (fills : alignment.length = padding located.address)
    (written : located.instruction.toBytes located.address =
      [code] ++ (List.replicate (padding located.address) 0 ++ operands)) :
    located.Spelled ([code] ++ (alignment ++ operands)) := by
  have marks := pads_iff isSwitch
  have unmarked {position : Nat} (outside : position ≤ located.address ∨
      located.address + padding located.address < position) : located.pads position = false := by
    rw [← Bool.not_eq_true, marks]
    omega
  have atOpcode : Bytes.blank located.pads located.address [code] = [code] :=
    Bytes.blank_of_unmarked fun position _ before => unmarked (.inl (Nat.le_of_lt_succ before))
  have between : Bytes.blank located.pads (located.address + 1) alignment =
      List.replicate (padding located.address) 0 := by
    rw [← fills]
    refine Bytes.blank_of_marked fun position after before => (marks position).2 ⟨after, ?_⟩
    omega
  have behind : Bytes.blank located.pads (located.address + 1 + alignment.length) operands =
      operands := by
    refine Bytes.blank_of_unmarked fun position after _ => unmarked (.inr ?_)
    omega
  rw [Spelled, written, Bytes.blank_append, Bytes.blank_append, atOpcode, List.length_singleton,
    between, behind]

end Located

namespace Instruction

open Reader

/-- Bytes spell an instruction at an address. -/
abbrev SpelledAt (address : Nat) (instruction : Instruction) (bytes : Bytes) : Prop :=
  Located.Spelled ⟨address, instruction⟩ bytes

variable {address : Nat} {before : Bytes} {code : UInt8}

theorem exact_readInt16 : readInt16.Exact int16Bytes :=
  exact_u16.bind_pure fun value => by simp [int16Bytes]

theorem exact_readInt32 : readInt32.Exact int32Bytes :=
  exact_u32.bind_pure fun value => by simp [int32Bytes]

/-- What was taken off is what is written for an instruction that is no switch. -/
theorem consumes_written {instruction : Instruction} (isPlain : instruction.isSwitch = false)
    (written : instruction.toBytes address = before) :
    (pure instruction : Reader Instruction).Consumes before (SpelledAt address) :=
  consumes_pure (Located.spelled_of_eq isPlain written)

theorem consumes_indexed {make : UInt16 → Instruction}
    (isPlain : ∀ index, (make index).isSwitch = false)
    (written : ∀ index, (make index).toBytes address = [code] ++ Bytes.ofUInt16 index) :
    (readIndexed make).Consumes [code] (SpelledAt address) :=
  exact_u16.bind fun index => consumes_written (isPlain index) (written index)

theorem consumes_branch {test : BranchTest} (isCode : UInt8.ofNat test.opcode = code) :
    (readBranch test).Consumes [code] (SpelledAt address) := by
  refine exact_readInt16.bind fun offset => consumes_written rfl ?_
  rw [← isCode]
  rfl

theorem consumes_readNarrow (code : UInt8) :
    readNarrow.Consumes [] fun operand taken => [code] ++ taken = slotBytes code operand :=
  exact_u8.bind fun _ => consumes_pure rfl

theorem consumes_readWide (code : UInt8) :
    readWide.Consumes [] fun operand taken =>
      [wideMarker, code] ++ taken = slotBytes code operand :=
  exact_u16.bind fun _ => consumes_pure rfl

/-- The operand is read in the form that was announced. -/
theorem consumes_slot {reader : Reader SlotOperand} {make : SlotOperand → Instruction}
    (form : reader.Consumes [] fun operand taken => before ++ taken = slotBytes code operand)
    (isPlain : ∀ slot, (make slot).isSwitch = false)
    (written : ∀ slot, (make slot).toBytes address = slotBytes code slot) :
    (do return make (← reader) : Reader Instruction).Consumes before (SpelledAt address) := by
  refine form.bind fun operand taken isForm => ?_
  exact consumes_written (isPlain operand) ((written operand).trans isForm.symm)

theorem consumes_padding (address : Nat) :
    (discard (take (padding address)) : Reader PUnit).Consumes [] fun _ alignment =>
      alignment.length = padding address := by
  refine (consumes_take (padding address)).bind ?_
  rintro alignment _ ⟨fills, rfl⟩
  exact consumes_pure fills

theorem consumes_readTableSwitch (address : Nat) :
    (readTableSwitch address).Consumes [0xaa] (SpelledAt address) := by
  refine (consumes_padding address).bind fun _ alignment fills => ?_
  refine exact_readInt32.bind fun fallback => ?_
  refine exact_readInt32.bind fun low => ?_
  refine exact_readInt32.bind fun high => ?_
  cases tableLength? low high with
  | none => exact consumes_fail
  | some count =>
      refine (consumes_times exact_readInt32 count).bind ?_
      rintro offsets _ ⟨_, rfl⟩
      refine consumes_pure ?_
      simp only [List.append_assoc]
      refine Located.spelled_switch rfl fills ?_
      simp [toBytes, opcode]

theorem consumes_readLookupSwitch (address : Nat) :
    (readLookupSwitch address).Consumes [0xab] (SpelledAt address) := by
  refine (consumes_padding address).bind fun _ alignment fills => ?_
  refine exact_readInt32.bind fun fallback => ?_
  refine exact_u32.bind fun count => ?_
  have pair : (do
      let key ← readInt32
      return (key, ← readInt32) : Reader (Int32 × Int32)).Exact fun pair =>
        int32Bytes pair.1 ++ int32Bytes pair.2 :=
    Consumes.exact (exact_readInt32.bind fun key => exact_readInt32.bind fun offset =>
      consumes_pure rfl)
  refine (consumes_times pair count.toNat).bind ?_
  rintro pairs _ ⟨isCount, rfl⟩
  refine consumes_pure ?_
  simp only [List.append_assoc]
  refine Located.spelled_switch rfl fills ?_
  simp [toBytes, opcode, isCount]

theorem consumes_readWideForm (address : Nat) :
    readWideForm.Consumes [wideMarker] (SpelledAt address) := by
  refine exact_u8.bind fun code => ?_
  generalize isNumber : code.toNat = number
  obtain rfl : UInt8.ofNat number = code := isNumber ▸ UInt8.ofNat_toNat
  clear isNumber
  split
  all_goals
    try first
    | exact consumes_fail
    | exact consumes_slot (consumes_readWide _) (fun _ => rfl) (fun _ => rfl)
  exact exact_u16.bind fun slot => exact_readInt16.bind fun amount => consumes_written rfl rfl

theorem consumes_readOperands (address : Nat) (code : UInt8) :
    (readOperands address code).Consumes [code] (SpelledAt address) := by
  unfold readOperands
  -- With its number in place of the byte, each case of the table knows its opcode.
  generalize isNumber : code.toNat = number
  obtain rfl : UInt8.ofNat number = code := isNumber ▸ UInt8.ofNat_toNat
  clear isNumber
  split
  all_goals
    try first
    | exact consumes_fail
    | exact consumes_indexed (fun _ => rfl) (fun _ => rfl)
    | exact consumes_branch rfl
    | exact consumes_slot (consumes_readNarrow _) (fun _ => rfl) (fun _ => rfl)
    | exact exact_readInt16.bind fun _ => consumes_written rfl rfl
    | exact exact_readInt32.bind fun _ => consumes_written rfl rfl
    | exact consumes_readTableSwitch address
    | exact consumes_readLookupSwitch address
    | exact consumes_readWideForm address
  -- The operands that are left are those of one instruction only, or single bytes.
  · exact exact_u8.bind fun value => consumes_written rfl (by simp [toBytes, opcode])
  · exact exact_u8.bind fun index => consumes_written rfl rfl
  · refine exact_u8.bind fun slot => exact_u8.bind fun amount => consumes_written rfl ?_
    simp [toBytes, opcode]
  · refine exact_u16.bind fun index => exact_u8.bind fun count => exact_u8.bind fun filler =>
      consumes_written rfl ?_
    simp [toBytes, opcode]
  · exact exact_u16.bind fun index => exact_u16.bind fun filler => consumes_written rfl rfl
  · exact exact_u8.bind fun elementCode => consumes_written rfl rfl
  · exact exact_u16.bind fun index => exact_u8.bind fun dimensions => consumes_written rfl rfl

theorem toBytes_of_mem_operandFree {instruction : Instruction}
    (free : instruction ∈ operandFree) (address : Nat) :
    instruction.isSwitch = false ∧
      instruction.toBytes address = [UInt8.ofNat instruction.opcode] := by
  cases instruction with
  | nop | arrayLength | athrow | monitorEnter | monitorExit | valueArrayLoad | valueArrayStore
  | const | loadShort | storeShort | arrayLoad | arrayStore | stack | binary | negate | bitwise
  | convert | compare | leave => exact ⟨rfl, rfl⟩
  | _ => simp [operandFree] at free

/-- What an instruction is read from spells it. -/
theorem consumes_read (address : Nat) : (read address).Consumes [] (SpelledAt address) := by
  refine exact_u8.bind fun code => ?_
  cases found : ofOpcode? code with
  | none => exact consumes_readOperands address code
  | some instruction =>
      rw [ofOpcode?_eq_find?] at found
      have isCode : UInt8.ofNat instruction.opcode = code := by
        have same := List.find?_some found
        rw [beq_iff_eq] at same
        rw [same, UInt8.ofNat_toNat]
      rcases toBytes_of_mem_operandFree (List.mem_of_find?_eq_some found) address with
        ⟨isPlain, written⟩
      exact consumes_written isPlain (written.trans (congrArg (fun code => [code]) isCode))

/-- Reading an instruction consumes as many bytes as the instruction takes up, so that
the next address is where the input goes on. -/
theorem length_of_read {address : Nat} {input rest : Bytes} {instruction : Instruction}
    (reads : read address input = .ok (instruction, rest)) :
    input.length = instruction.size address + rest.length := by
  rcases consumes_read address _ _ _ reads with ⟨taken, rfl, spelled⟩
  have same := congrArg List.length spelled
  rw [length_toBytes, Bytes.length_blank] at same
  rw [List.length_append, same]
  rfl

end Instruction

namespace Code

/-- Whether a position of code is an alignment byte of one of its instructions. -/
def pads (code : List Located) (position : Nat) : Bool :=
  code.any (·.pads position)

@[simp]
theorem pads_cons (located : Located) (code : List Located) (position : Nat) :
    pads (located :: code) position = (located.pads position || pads code position) :=
  rfl

theorem pads_eq_false_of_lt {address position : Nat} {instructions : List Instruction}
    (before : position < address) : pads (locate address instructions) position = false := by
  rw [pads, List.any_eq_false]
  intro located found
  have behind := Nat.le_trans (Nat.le_of_lt before) (le_address_of_mem_locate found)
  rw [Located.pads_eq_false_of_le_address behind]
  exact Bool.false_ne_true

/-- What is taken apart from an address on is written again, with 0 for alignment. -/
theorem encode_of_decodeFrom {fuel address : Nat} {done decoded : List Located} {input : Bytes}
    (succeeded : decodeFrom fuel address done input = .ok decoded) :
    ∃ instructions, decoded = done.reverse ++ locate address instructions ∧
      encodeFrom address [] instructions =
        input.blank (pads (locate address instructions)) address := by
  fun_induction decodeFrom fuel address done input with
  | case1 fuel address done =>
      cases succeeded
      exact ⟨[], by simp [locate], rfl⟩
  | case2 => cases succeeded
  | case3 => cases succeeded
  | case4 fuel address done input _ instruction rest reads ih =>
      rcases ih succeeded with ⟨instructions, rfl, written⟩
      refine ⟨instruction :: instructions, by simp [locate], ?_⟩
      rcases Instruction.consumes_read address _ _ _ reads with ⟨taken, rfl, spelled⟩
      -- The alignment bytes of an instruction are its own, so the first instruction and
      -- the later ones are blanked apart.
      have length : taken.length = instruction.size address := by
        have consumed := Instruction.length_of_read reads
        rw [List.length_append] at consumed
        omega
      have here : Bytes.blank (pads (locate address (instruction :: instructions))) address taken =
          instruction.toBytes address := by
        refine (Bytes.blank_congr fun position _ before => ?_).trans spelled.symm
        rw [locate, pads_cons, pads_eq_false_of_lt, Bool.or_false]
        rwa [length] at before
      have later : Bytes.blank (pads (locate address (instruction :: instructions)))
          (address + taken.length) rest =
          encodeFrom (address + instruction.size address) [] instructions := by
        rw [written, length]
        refine Bytes.blank_congr fun position behind _ => ?_
        rw [locate, pads_cons, Located.pads_eq_false_of_stop_le behind, Bool.false_or]
      rw [encodeFrom_cons, Bytes.blank_append, here, later]

/-- Code that is taken apart consists of instructions back to back, and of nothing
else. -/
theorem exists_locate_of_decode {code : Bytes} {decoded : List Located}
    (succeeded : decode code = .ok decoded) :
    ∃ instructions, decoded = locate 0 instructions ∧ extent decoded = code.length := by
  rcases encode_of_decodeFrom succeeded with ⟨instructions, rfl, written⟩
  refine ⟨instructions, rfl, ?_⟩
  have length := congrArg List.length written
  rw [Bytes.length_blank] at length
  exact (extent_locate 0 instructions).trans length

/-- Decoded instructions are within the code, each behind the one before. -/
theorem pairwise_address_of_decode {code : Bytes} {decoded : List Located}
    (succeeded : decode code = .ok decoded) :
    (decoded.Pairwise fun here there => here.address < there.address) ∧
      ∀ located ∈ decoded, located.address < code.length := by
  rcases exists_locate_of_decode succeeded with ⟨instructions, rfl, length⟩
  refine ⟨pairwise_locate 0 instructions, fun located found => ?_⟩
  have before := address_lt_of_mem_locate found
  rwa [Nat.zero_add, length] at before

/-- Code that can be taken apart consists of its instructions back to back, from
address 0 to its end. Written again it is as long as before and has the same bytes,
but for those that align the operands of switches, where it has 0. -/
theorem encode_decode_off_padding {code : Bytes} {decoded : List Located}
    (succeeded : decode code = .ok decoded) :
    (∀ first ∈ decoded.head?, first.address = 0) ∧
      (decoded.IsChain fun here next => next.address = here.stop) ∧
      decoded.getLast?.elim 0 Located.stop = code.length ∧
      (encode (decoded.map Located.instruction)).length = code.length ∧
      ∀ (position : Nat) (byte : UInt8), code[position]? = some byte →
        (encode (decoded.map Located.instruction))[position]? =
          some (if pads decoded position then 0 else byte) := by
  rcases encode_of_decodeFrom succeeded with ⟨instructions, rfl, written⟩
  simp only [List.reverse_nil, List.nil_append, map_instruction_locate]
  have length : (encode instructions).length = code.length := by
    rw [encode, written, Bytes.length_blank]
  refine ⟨fun first => address_of_mem_head?_locate, isChain_locate 0 instructions, ?_, length, ?_⟩
  · rw [stop_of_locate, Nat.zero_add, extent_locate]
    exact length
  · intro position byte found
    rw [encode, written, Bytes.getElem?_blank, found, Nat.zero_add]
    rfl

/-- A jump table at an odd address, with bytes other than 0 in front of its operands. -/
def unalignedTable : Bytes :=
  [0x03, 0xaa, 0x11, 0x22, 0, 0, 0, 20, 0xff, 0xff, 0xff, 0xff, 0, 0, 0, 0, 0, 0, 0, 24,
    0xff, 0xff, 0xff, 0xff, 0xb1]

theorem encode_decode_off_padding_unalignedTable :
    ∃ decoded, decode unalignedTable = .ok decoded ∧
      decoded = [⟨0, .const .int0⟩, ⟨1, .tableSwitch 20 (-1) 0 [24, -1]⟩, ⟨24, .leave .void⟩] ∧
      decoded.getLast?.elim 0 Located.stop = unalignedTable.length ∧
      (encode (decoded.map Located.instruction))[2]? = some 0 ∧
      (encode (decoded.map Located.instruction))[7]? = some 20 := by
  have succeeded : decode unalignedTable = .ok
      [⟨0, .const .int0⟩, ⟨1, .tableSwitch 20 (-1) 0 [24, -1]⟩, ⟨24, .leave .void⟩] := by
    decide +kernel
  rcases encode_decode_off_padding succeeded with ⟨_, _, last, _, bytes⟩
  exact ⟨_, succeeded, rfl, last, bytes 2 0x11 rfl, bytes 7 20 rfl⟩

end Code

end ValueForm
