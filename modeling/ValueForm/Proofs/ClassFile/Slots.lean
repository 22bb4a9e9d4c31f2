import ValueForm.Proofs.Reader
import ValueForm.Proofs.ClassFile.Pool

/-!
# Pools read back

A constant of two slots reserves the one behind it, for which nothing is written.
`Constant.Aligned` says which slots of a list are reserved, `ConstantPool.Fills`
how the constants that are read fill the declared size. A size may end in the
middle of a constant: `ConstantPool.SizeAgrees` allows for that, and with it a pool
can be read from what is written for it, `ConstantPool.Readable`, exactly if it is
what reading these bytes gives.
-/

namespace ValueForm

open Reader

/-! ## Constants -/

namespace Constant

/-- The length of the text of a constant. -/
def textLength : Constant → Nat
  | .utf8 bytes => bytes.length
  | _ => 0

/-- The text of a constant, if it is one, fits its length field. -/
def Fits (constant : Constant) : Prop :=
  constant.textLength ≤ 65535

instance : DecidablePred Fits :=
  fun constant => inferInstanceAs (Decidable (constant.textLength ≤ 65535))

theorem reads_tagged {tag : UInt8} {bytes : Bytes} {constant : Constant}
    (fields : (readFields tag).Reads bytes constant) : read.Reads (tag :: bytes) constant :=
  (reads_u8 tag).bind fields

theorem reads_index {make : UInt16 → Constant} (index : UInt16) :
    (readIndex make).Reads (Bytes.ofUInt16 index) (make index) :=
  (reads_u16 index).bind_pure

theorem reads_indices {make : UInt16 → UInt16 → Constant} (first second : UInt16) :
    (readIndices make).Reads (Bytes.ofUInt16 first ++ Bytes.ofUInt16 second)
      (make first second) :=
  (reads_u16 first).bind (reads_u16 second).bind_pure

/-- A constant is read back. -/
theorem reads_toBytes {constant : Constant} (isUsed : constant ≠ .reserved)
    (fits : constant.Fits) : read.Reads constant.toBytes constant := by
  cases constant with
  | reserved => exact absurd rfl isUsed
  | utf8 bytes =>
      have length : (UInt16.ofNat bytes.length).toNat = bytes.length :=
        UInt16.toNat_ofNat_of_lt' (Nat.lt_succ_of_le fits)
      exact reads_tagged ((reads_u16 _).bind (reads_take length).bind_pure)
  | integer value => exact reads_tagged (reads_u32 value.toUInt32).bind_pure
  | float bits => exact reads_tagged (reads_u32 bits).bind_pure
  | long value => exact reads_tagged (reads_u64 value.toUInt64).bind_pure
  | double bits => exact reads_tagged (reads_u64 bits).bind_pure
  | methodHandle kind reference =>
      exact reads_tagged ((reads_u8 kind).bind (reads_u16 reference).bind_pure)
  | classRef index | string index | methodType index | moduleRef index | packageRef index =>
      exact reads_tagged (reads_index index)
  | fieldRef first second | methodRef first second | interfaceMethodRef first second
  | nameAndType first second | dynamic first second | invokeDynamic first second =>
      exact reads_tagged (reads_indices first second)

/-- The constant can be read: it is not the second slot of another, and its text
fits. -/
def Readable (constant : Constant) : Prop :=
  constant ≠ .reserved ∧ constant.Fits

instance : DecidablePred Readable :=
  fun constant => inferInstanceAs (Decidable (constant ≠ .reserved ∧ constant.Fits))

theorem readable_of_noText {constant : Constant} (isUsed : constant ≠ .reserved)
    (noText : constant.textLength = 0) : constant.Readable :=
  ⟨isUsed, noText.trans_le (Nat.zero_le 65535)⟩

/-- What was taken off is what is written for a constant that is no text. -/
theorem consumes_written {constant : Constant} {before : Bytes} (isUsed : constant ≠ .reserved)
    (noText : constant.textLength = 0) (written : before = constant.toBytes) :
    (pure constant : Reader Constant).Consumes before fun constant taken =>
      constant.Readable ∧ taken = constant.toBytes :=
  consumes_pure ⟨readable_of_noText isUsed noText, written⟩

theorem consumes_text :
    (do
      let length ← u16
      return .utf8 (← take length.toNat) : Reader Constant).Consumes [1] fun constant taken =>
        constant.Readable ∧ taken = constant.toBytes := by
  refine exact_u16.bind fun length => (consumes_take length.toNat).bind ?_
  rintro bytes _ ⟨isLength, rfl⟩
  refine consumes_pure ⟨⟨Constant.noConfusion, ?_⟩, ?_⟩
  · rw [Fits, textLength, isLength]
    exact Nat.le_of_lt_succ length.toNat_lt
  · rw [toBytes, Bytes.count16, isLength, UInt16.ofNat_toNat]
    rfl

/-- What the fields of a constant are read from, behind its tag, is written for it. -/
theorem consumes_readFields (tag : UInt8) :
    (readFields tag).Consumes [tag] fun constant taken =>
      constant.Readable ∧ taken = constant.toBytes := by
  unfold readFields
  generalize isNumber : tag.toNat = number
  obtain rfl : UInt8.ofNat number = tag := isNumber ▸ UInt8.ofNat_toNat
  clear isNumber
  split
  all_goals
    try first
    | exact consumes_fail
    | exact exact_u16.bind fun _ => consumes_written Constant.noConfusion rfl rfl
    | exact exact_u16.bind fun _ => exact_u16.bind fun _ =>
        consumes_written Constant.noConfusion rfl rfl
    | exact exact_u32.bind fun value =>
        consumes_written Constant.noConfusion rfl (by simp [toBytes])
    | exact exact_u64.bind fun value =>
        consumes_written Constant.noConfusion rfl (by simp [toBytes])
  · exact consumes_text
  · exact exact_u8.bind fun kind => exact_u16.bind fun reference =>
      consumes_written Constant.noConfusion rfl rfl

theorem consumes_read :
    read.Consumes [] fun constant taken => constant.Readable ∧ taken = constant.toBytes :=
  exact_u8.bind consumes_readFields

/-- A constant is read exactly from what is written for it. -/
theorem read_eq_ok_iff {input rest : Bytes} {constant : Constant} :
    read input = .ok (constant, rest) ↔
      constant.Readable ∧ input = constant.toBytes ++ rest :=
  Reader.eq_ok_iff (fun _ readable => reads_toBytes readable.1 readable.2) consumes_read

@[simp]
theorem mem_slots_self (constant : Constant) : constant ∈ constant.slots := by
  unfold slots
  split <;> exact List.mem_cons_self

theorem eq_of_mem_slots {constant slot : Constant} (found : slot ∈ constant.slots) :
    slot = constant ∨ slot = .reserved := by
  unfold slots at found
  split at found
  · simpa using found
  · exact .inl (List.mem_singleton.1 found)

@[simp]
theorem slots_ne_nil (constant : Constant) : constant.slots ≠ [] :=
  List.ne_nil_of_mem constant.mem_slots_self

@[simp]
theorem flatMap_toBytes_slots (constant : Constant) :
    constant.slots.flatMap toBytes = constant.toBytes := by
  unfold slots
  split
  · exact congrArg (constant.toBytes ++ ·) rfl |>.trans (List.append_nil _)
  · exact List.append_nil _

end Constant

/-! ## Slots -/

namespace Constant

/-- In a list of slots the one behind each two-slot constant is reserved, and no
other. -/
def Aligned (slots : List Constant) : Prop :=
  slots[0]? ≠ some .reserved ∧
    ∀ position : Nat, slots[position + 1]? = some .reserved ↔
      slots[position]?.any isWide = true

theorem aligned_slots_append {constant : Constant} (isUsed : constant ≠ .reserved)
    (rest : List Constant) : Aligned (constant.slots ++ rest) ↔ Aligned rest := by
  cases isWide : constant.isWide with
  | true =>
      have slots : constant.slots = [constant, .reserved] := by rw [Constant.slots, if_pos isWide]
      rw [slots, Aligned, ← Nat.and_forall_add_one, ← Nat.and_forall_add_one, Aligned]
      have narrow : Constant.reserved.isWide = false := rfl
      simp [isUsed, isWide, narrow]
  | false =>
      have slots : constant.slots = [constant] := by simp [Constant.slots, isWide]
      rw [slots, Aligned, ← Nat.and_forall_add_one, Aligned]
      simp [isUsed, isWide]

/-- Aligned slots that are not empty start with those of a constant. -/
theorem exists_append_of_aligned {first : Constant} {others : List Constant}
    (aligned : Aligned (first :: others)) :
    first ≠ .reserved ∧ ∃ rest, first :: others = first.slots ++ rest := by
  have isUsed : first ≠ .reserved := fun isReserved => aligned.1 (congrArg some isReserved)
  refine ⟨isUsed, ?_⟩
  cases isWide : first.isWide with
  | true =>
      have next := (aligned.2 0).2 isWide
      cases others with
      | nil => cases next
      | cons second rest =>
          cases next
          exact ⟨rest, by rw [slots, if_pos isWide]; rfl⟩
  | false => exact ⟨others, by simp [slots, isWide]⟩

/-- Aligned slots are those of a list of constants. -/
theorem aligned_iff {entries : List Constant} :
    Aligned entries ↔ ∃ constants : List Constant, .reserved ∉ constants ∧
      entries = constants.flatMap slots := by
  constructor
  · intro aligned
    induction length : entries.length using Nat.strong_induction_on generalizing entries with
    | _ length ih =>
        cases entries with
        | nil => exact ⟨[], List.not_mem_nil, rfl⟩
        | cons first others =>
            rcases exists_append_of_aligned aligned with ⟨isUsed, rest, isRest⟩
            have shorter : rest.length < (first :: others).length := by
              rw [isRest, List.length_append]
              exact Nat.lt_add_of_pos_left (List.length_pos_of_ne_nil first.slots_ne_nil)
            rw [isRest, aligned_slots_append isUsed] at aligned
            rcases ih _ (length ▸ shorter) aligned rfl with ⟨constants, areUsed, rfl⟩
            refine ⟨first :: constants, ?_, isRest⟩
            rw [List.mem_cons, not_or]
            exact ⟨isUsed.symm, areUsed⟩
  · rintro ⟨constants, areUsed, rfl⟩
    induction constants with
    | nil => simp [Aligned]
    | cons constant constants ih =>
        rw [List.mem_cons, not_or] at areUsed
        rw [List.flatMap_cons, aligned_slots_append (Ne.symm areUsed.1)]
        exact ih areUsed.2

end Constant

/-! ## Pools -/

namespace ConstantPool

/-- Constants fill the slots from `start` on up to a declared size: each begins
below it, and the last one reaches it. -/
def Fills (size : Nat) : (start : Nat) → List Constant → Prop
  | start, [] => size ≤ start + 1
  | start, constant :: constants =>
      start + 1 < size ∧ Fills size (start + constant.slots.length) constants

theorem fills_iff_eq_nil {size start : Nat} (full : size ≤ start + 1)
    {constants : List Constant} : Fills size start constants ↔ constants = [] := by
  cases constants with
  | nil => simp [Fills, full]
  | cons constant constants => simp [Fills, Nat.not_lt.2 full]

/-- Nothing is read once the slots are filled. -/
theorem readEntries_of_full {size : Nat} {entries : Array Constant}
    (full : size ≤ entries.size + 1) (fuel : Nat) (input : Bytes) :
    readEntries size fuel entries input = .ok (entries, input) := by
  cases fuel with
  | zero => rfl
  | succ fuel => rw [readEntries, if_neg (Nat.not_lt.2 full)]

/-- While slots are left, a constant is read and its slots are appended. -/
theorem readEntries_succ_eq_ok_iff {size fuel : Nat} {entries last : Array Constant}
    {input rest : Bytes} (more : entries.size + 1 < size) :
    readEntries size (fuel + 1) entries input = .ok (last, rest) ↔
      ∃ constant between, Constant.Readable constant ∧ input = constant.toBytes ++ between ∧
        readEntries size fuel (entries ++ constant.slots.toArray) between = .ok (last, rest) := by
  have slots (constant : Constant) : (if constant.isWide then
      (entries.push constant).push .reserved else entries.push constant) =
        entries ++ constant.slots.toArray :=
    Array.toList_inj.1 ((toList_push { entries } constant).trans (by simp))
  rw [readEntries, if_pos more]
  constructor
  · intro succeeded
    split at succeeded
    · cases succeeded
    · next constant between reads =>
        rcases Constant.read_eq_ok_iff.1 reads with ⟨readable, isInput⟩
        exact ⟨constant, between, readable, isInput, slots constant ▸ succeeded⟩
  · rintro ⟨constant, between, readable, isInput, succeeded⟩
    rw [Constant.read_eq_ok_iff.2 ⟨readable, isInput⟩]
    dsimp only
    rw [slots]
    exact succeeded

/-- Entries are read exactly from what is written for constants that fill the
slots which are left. -/
theorem readEntries_eq_ok_iff {size fuel : Nat} {entries last : Array Constant}
    {input rest : Bytes} (enough : size ≤ entries.size + 1 + fuel) :
    readEntries size fuel entries input = .ok (last, rest) ↔
      ∃ constants : List Constant, (∀ constant ∈ constants, constant.Readable) ∧
        Fills size entries.size constants ∧
        last = entries ++ (constants.flatMap Constant.slots).toArray ∧
        input = constants.flatMap Constant.toBytes ++ rest := by
  induction fuel generalizing entries input with
  | zero =>
      rw [readEntries_of_full enough]
      simp [fills_iff_eq_nil enough, eq_comm]
  | succ fuel ih =>
      rcases Nat.lt_or_ge (entries.size + 1) size with more | full
      · have next (constant : Constant) :
            size ≤ (entries ++ constant.slots.toArray).size + 1 + fuel := by
          have atLeastOne := List.length_pos_of_ne_nil constant.slots_ne_nil
          simp only [Array.size_append, List.size_toArray]
          omega
        rw [readEntries_succ_eq_ok_iff more]
        constructor
        · rintro ⟨constant, between, readable, rfl, succeeded⟩
          rcases (ih (next constant)).1 succeeded with ⟨constants, readables, fills, rfl, rfl⟩
          refine ⟨constant :: constants, List.forall_mem_cons.2 ⟨readable, readables⟩, ⟨more, ?_⟩,
            ?_, ?_⟩
          · simpa using fills
          · simp
          · simp
        · rintro ⟨constants, readables, fills, rfl, rfl⟩
          cases constants with
          | nil => exact absurd more (Nat.not_lt.2 fills)
          | cons constant constants =>
              rw [List.forall_mem_cons] at readables
              refine ⟨constant, constants.flatMap Constant.toBytes ++ rest, readables.1, by simp,
                (ih (next constant)).2 ⟨constants, readables.2, ?_, ?_, rfl⟩⟩
              · simpa using fills.2
              · simp
      · rw [readEntries_of_full full]
        simp [fills_iff_eq_nil full, eq_comm]

/-- The declared size of a pool agrees with its slots: it is one more than their
number; or it is their number, in an empty pool and in one that ends in a two-slot
constant. -/
def SizeAgrees (pool : ConstantPool) : Prop :=
  pool.size.toNat = pool.entries.size + 1 ∨
    pool.size.toNat = pool.entries.size ∧ ∀ last ∈ pool.entries.back?, last = .reserved

/-- The slots are those of constants whose texts fit their length fields. -/
structure Sound (pool : ConstantPool) : Prop where
  aligned : Constant.Aligned pool.entries.toList
  texts : ∀ constant ∈ pool.entries, constant.Fits

/-- The pool can be read from what is written for it. -/
structure Readable (pool : ConstantPool) : Prop extends Sound pool where
  size : pool.SizeAgrees

theorem fills_cons_iff {size start : Nat} {constant : Constant} {constants : List Constant}
    (areUsed : .reserved ∉ constant :: constants) :
    Fills size start (constant :: constants) ↔
      size = start + ((constant :: constants).flatMap Constant.slots).length + 1 ∨
      size = start + ((constant :: constants).flatMap Constant.slots).length ∧
        ((constant :: constants).flatMap Constant.slots).getLast? = some .reserved := by
  induction constants generalizing start constant with
  | nil =>
      have isUsed : constant ≠ .reserved := fun isReserved => areUsed (by simp [isReserved])
      cases isWide : constant.isWide with
      | true =>
          simp [Fills, Constant.slots, isWide]
          omega
      | false =>
          simp [Fills, Constant.slots, isWide, isUsed]
          omega
  | cons next constants ih =>
      rw [List.mem_cons, not_or] at areUsed
      have atLeastOne := List.length_pos_of_ne_nil constant.slots_ne_nil
      have later : 0 < ((next :: constants).flatMap Constant.slots).length := by
        rw [List.flatMap_cons, List.length_append]
        exact Nat.add_pos_left (List.length_pos_of_ne_nil next.slots_ne_nil) _
      have split : (constant :: next :: constants).flatMap Constant.slots =
          constant.slots ++ (next :: constants).flatMap Constant.slots := List.flatMap_cons
      -- Where the last constant ends, the first one has begun.
      rw [Fills, ih areUsed.2, split, List.length_append, ← Nat.add_assoc,
        List.getLast?_append_of_ne_nil _ (List.ne_nil_of_length_pos later), and_iff_right_iff_imp]
      rintro (isSize | ⟨isSize, _⟩) <;> omega

theorem fills_iff_sizeAgrees {pool : ConstantPool} {constants : List Constant}
    (areUsed : .reserved ∉ constants)
    (isEntries : pool.entries = (constants.flatMap Constant.slots).toArray) :
    Fills pool.size.toNat 0 constants ↔ pool.SizeAgrees := by
  rw [SizeAgrees, isEntries, List.size_toArray, List.back?_toArray]
  cases constants with
  | nil =>
      rw [Fills, List.flatMap_nil, List.length_nil]
      simp
      omega
  | cons constant constants =>
      rw [fills_cons_iff areUsed, Nat.zero_add]
      cases isLast : ((constant :: constants).flatMap Constant.slots).getLast? with
      | none =>
          rw [List.getLast?_eq_none_iff, List.flatMap_cons, List.append_eq_nil_iff] at isLast
          exact absurd isLast.1 constant.slots_ne_nil
      | some last => simp

/-- The slots of readable constants are aligned, and their texts fit. -/
theorem forall_readable_iff {constants : List Constant} :
    (∀ constant ∈ constants, constant.Readable) ↔
      .reserved ∉ constants ∧ ∀ slot ∈ constants.flatMap Constant.slots, slot.Fits := by
  constructor
  · intro readable
    refine ⟨fun found => (readable _ found).1 rfl, fun slot found => ?_⟩
    rcases List.mem_flatMap.1 found with ⟨constant, isConstant, isSlot⟩
    rcases Constant.eq_of_mem_slots isSlot with rfl | rfl
    · exact (readable slot isConstant).2
    · exact Nat.zero_le 65535
  · rintro ⟨areUsed, texts⟩ constant found
    have isSlot := List.mem_flatMap.2 ⟨constant, found, constant.mem_slots_self⟩
    exact ⟨fun isReserved => areUsed (isReserved ▸ found), texts constant isSlot⟩

/-- A pool is readable if its slots are those of readable constants that fill it. -/
theorem readable_iff {pool : ConstantPool} :
    pool.Readable ↔ ∃ constants : List Constant, (∀ constant ∈ constants, constant.Readable) ∧
      Fills pool.size.toNat 0 constants ∧
      pool.entries = (constants.flatMap Constant.slots).toArray := by
  constructor
  · rintro ⟨⟨aligned, texts⟩, size⟩
    rcases Constant.aligned_iff.1 aligned with ⟨constants, areUsed, isList⟩
    have isEntries := Array.toList_inj.1 (isList.trans (List.toList_toArray).symm)
    refine ⟨constants, forall_readable_iff.2 ⟨areUsed, fun slot found => texts slot ?_⟩,
      (fills_iff_sizeAgrees areUsed isEntries).2 size, isEntries⟩
    rwa [isEntries, List.mem_toArray]
  · rintro ⟨constants, readable, fills, isEntries⟩
    rcases forall_readable_iff.1 readable with ⟨areUsed, texts⟩
    refine ⟨⟨Constant.aligned_iff.2 ⟨constants, areUsed, ?_⟩, ?_⟩,
      (fills_iff_sizeAgrees areUsed isEntries).1 fills⟩
    · rw [isEntries]
    · rw [isEntries]
      intro slot found
      exact texts slot (List.mem_toArray.1 found)

/-- The entries of a pool are read exactly from what is written for them. -/
theorem readEntries_empty_eq_ok_iff {size : UInt16} {entries : Array Constant}
    {input rest : Bytes} :
    readEntries size.toNat size.toNat #[] input = .ok (entries, rest) ↔
      Readable ⟨size, entries⟩ ∧ input = entries.toList.flatMap Constant.toBytes ++ rest := by
  have written {constants : List Constant} :
      (constants.flatMap Constant.slots).flatMap Constant.toBytes =
        constants.flatMap Constant.toBytes := by
    rw [List.flatMap_assoc]
    simp only [Constant.flatMap_toBytes_slots]
  rw [readEntries_eq_ok_iff (Nat.le_add_left _ _), readable_iff]
  simp only [Array.empty_append]
  constructor
  · rintro ⟨constants, readable, fills, rfl, rfl⟩
    exact ⟨⟨constants, readable, fills, rfl⟩, by rw [written]⟩
  · rintro ⟨⟨constants, readable, fills, rfl⟩, rfl⟩
    exact ⟨constants, readable, fills, rfl, by rw [written]⟩

/-- A readable pool is read back. -/
theorem reads_toBytes {pool : ConstantPool} (readable : pool.Readable) :
    read.Reads pool.toBytes pool := by
  have entries : (readEntries pool.size.toNat pool.size.toNat #[]).Reads
      (pool.entries.toList.flatMap Constant.toBytes) pool.entries :=
    fun rest => readEntries_empty_eq_ok_iff.2 ⟨readable, rfl⟩
  exact (reads_u16 pool.size).bind entries.bind_pure

/-- A pool that was read is readable, and was read from what is written for it. -/
theorem consumes_read :
    read.Consumes [] fun pool taken => pool.Readable ∧ taken = pool.toBytes := by
  have entries (size : UInt16) : (readEntries size.toNat size.toNat #[]).Consumes []
      fun entries taken =>
        Readable ⟨size, entries⟩ ∧ taken = entries.toList.flatMap Constant.toBytes := by
    intro input entries rest succeeded
    rcases readEntries_empty_eq_ok_iff.1 succeeded with ⟨readable, isInput⟩
    exact ⟨_, isInput, readable, rfl⟩
  refine exact_u16.bind fun size => (entries size).bind ?_
  rintro entries _ ⟨readable, rfl⟩
  exact consumes_pure ⟨readable, rfl⟩

-- A size that ends in the middle of a constant, and one that leaves no slot at all.
example : read [0, 2, 5, 0, 0, 0, 0, 0, 0, 0, 7, 9] = .ok (⟨2, #[.long 7, .reserved]⟩, [9]) := by
  decide +kernel

example : read [0, 0, 9] = .ok (⟨0, #[]⟩, [9]) := by
  decide +kernel

/-- The entries are the slots of constants: those of two slots are followed by
the one they reserve, and no other slot is reserved. -/
def Slotted (pool : ConstantPool) : Prop :=
  ∃ constants : List Constant, .reserved ∉ constants ∧
    pool.entries.toList = constants.flatMap Constant.slots

theorem Slotted.grows {first second : ConstantPool} (slotted : first.Slotted)
    (grows : first.Grows second) : second.Slotted := by
  rcases slotted with ⟨constants, isUsed, isFirst⟩
  rcases grows with ⟨added, isUsed', isSecond⟩
  refine ⟨constants ++ added, ?_, ?_⟩
  · simp [isUsed, isUsed']
  · rw [isSecond, isFirst, List.flatMap_append]

/-- The pool can be written without cutting off its size or a text. -/
structure Fits (pool : ConstantPool) : Prop where
  slotted : pool.Slotted
  size : pool.size.toNat = pool.entries.size + 1
  texts : ∀ constant ∈ pool.entries, constant.Fits

theorem Fits.readable {pool : ConstantPool} (fits : pool.Fits) : pool.Readable :=
  ⟨⟨Constant.aligned_iff.2 fits.slotted, fits.texts⟩, .inl fits.size⟩

end ConstantPool

end ValueForm
