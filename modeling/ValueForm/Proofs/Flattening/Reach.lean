import ValueForm.Proofs.Flattening.Rounds

/-!
# Branches that reach their targets

A target moves exactly if an instruction of the body stands there, and as long as
code stays below 2³¹ bytes every distance fits into the long form of a branch. So
nothing but a missing instruction keeps a branch from being decided, and what was
decided can be put together.
-/

namespace ValueForm

/-- An instruction of the body starts at an address inside its code. -/
def MethodBody.Holds (body : MethodBody) (address : Int) : Prop :=
  ∃ located ∈ body.instructions, (located.address : Int) = address ∧
    located.address < body.code.code.length

namespace Instruction

/-- A branch has room for its offsets or has a long form. -/
theorem widenedSize?_of_withBranchOffsets? {instruction : Instruction} {offsets : List Int32}
    (isBranch : instruction.isBranch = true)
    (length : offsets.length = instruction.branchOffsets.length)
    (noRoom : instruction.withBranchOffsets? offsets = none) :
    instruction.widenedSize?.isSome = true := by
  cases instruction with
  | branch | goto | jsr | gotoWide | jsrWide => rfl
  | tableSwitch fallback low high table =>
      rcases List.exists_cons_of_length_eq_add_one length with ⟨other, rest, rfl⟩
      cases noRoom
  | lookupSwitch fallback pairs =>
      rcases List.exists_cons_of_length_eq_add_one length with ⟨other, rest, rfl⟩
      have sameLength : rest.length = pairs.length := by
        simpa [branchOffsets] using length
      rw [withBranchOffsets?, if_pos sameLength] at noRoom
      cases noRoom
  | _ => cases isBranch

theorem three_le_widenedSize? {instruction : Instruction}
    (isLong : instruction.widenedSize?.isSome = true) :
    3 ≤ instruction.widenedSize?.getD 0 := by
  cases instruction with
  | branch | goto | jsr | gotoWide | jsrWide => exact Nat.le_of_ble_eq_true rfl
  | _ => cases isLong

/-- A branch with a long form has it for every distance that leaves room for the test
in front of a long jump. -/
theorem exists_widen? {instruction : Instruction} {offset : Int32}
    (isLong : instruction.widenedSize?.isSome = true) (room : -2147483648 ≤ offset.toInt - 3) :
    ∃ form, instruction.widen? offset = some form := by
  cases instruction with
  | goto | jsr | gotoWide | jsrWide => exact ⟨_, rfl⟩
  | branch test old =>
      have most := offset.toInt_lt
      rw [widen?, offset32?, if_pos (by omega)]
      exact ⟨_, rfl⟩
  | _ => cases isLong

end Instruction

/-- The code of a body, laid out below 2³¹ bytes. -/
structure Emission.Compact (emission : Emission) (body : MethodBody) (relocation : Relocation) :
    Prop where
  relocates : emission.Relocates body.addresses body.code.code.length relocation
  count : emission.segments.size = body.instructions.size
  small : ∀ (index address : Nat), relocation.layout.bounds[index]? = some address →
    address < 2 ^ 31

namespace Relocation

/-! ## Targets -/

theorem invalidTarget_of_target {relocation : Relocation} {source : Nat} {offset : Int32}
    {error : FlattenError} (failed : relocation.target source offset = .error error) :
    error = .invalidTarget source (source + offset.toInt) := by
  unfold target at failed
  dsimp only at failed
  generalize (source : Int) + offset.toInt = old at failed ⊢
  split at failed
  · cases failed
  · cases failed
    rfl

theorem target_eq_of_nat (relocation : Relocation) {source old : Nat} {offset : Int32}
    (isOld : (source : Int) + offset.toInt = old) :
    relocation.target source offset =
      match if old < relocation.oldLength then relocation.address? old else none with
      | some address => .ok address
      | none => .error (.invalidTarget source old) := by
  unfold target
  generalize (source : Int) + offset.toInt = place at isOld ⊢
  subst isOld
  rfl

variable {body : MethodBody} {emission : Emission} {relocation : Relocation}

/-- What has moved was an instruction of the body. -/
theorem holds_of_target
    (relocates : emission.Relocates body.addresses body.code.code.length relocation)
    {source target : Nat} {offset : Int32} (moved : relocation.target source offset = .ok target) :
    body.Holds (source + offset.toInt) := by
  rcases movesTo_of_target relocates.addresses moved with ⟨index, located, atIndex, isOld, _⟩
  refine ⟨located, Array.mem_of_getElem? atIndex, isOld, ?_⟩
  rw [relocation.target_eq_of_nat isOld.symm, relocates.oldLength] at moved
  by_contra outside
  rw [if_neg outside] at moved
  cases moved

/-- Where an instruction of the body stands, a target moves. -/
theorem exists_target (compact : emission.Compact body relocation) {source : Nat}
    {offset : Int32} (holds : body.Holds (source + offset.toInt)) :
    ∃ target, relocation.target source offset = .ok target := by
  rcases holds with ⟨located, isInstruction, isOld, inside⟩
  have relocates := compact.relocates
  rw [relocation.target_eq_of_nat isOld.symm, relocates.oldLength, if_pos inside, address?,
    relocates.addresses]
  cases found : body.addresses[located.address]? with
  | none =>
      exact absurd rfl
        (MethodBody.address_ne_of_getElem?_addresses found located isInstruction)
  | some index =>
      rcases MethodBody.getElem?_addresses found with ⟨_, atIndex, _⟩
      have inRange : index < emission.segments.size :=
        compact.count ▸ (Array.getElem?_eq_some_iff.1 atIndex).1
      rcases relocates.laidOut.next index _ (Array.getElem?_eq_getElem inRange) with
        ⟨start, _, isStart, _⟩
      have atStart := relocates.laidOut.starts (Array.getElem?_eq_getElem inRange) isStart
      exact ⟨start, by rw [Option.bind_eq_bind, Option.bind_some, atStart]⟩

/-- Addresses that differ by less than 2³¹ bytes are offsets of each other, so the offsets
of a branch are missing only if an instruction is. -/
theorem offsets_cases (compact : emission.Compact body relocation) {address : Nat}
    (here : address < 2 ^ 31) (source : Nat) (instruction : Instruction) :
    (∃ offsets, relocation.offsets address source instruction = .ok offsets ∧
      ∀ offset ∈ instruction.branchOffsets, body.Holds (source + offset.toInt)) ∨
    ∃ offset ∈ instruction.branchOffsets, ¬ body.Holds (source + offset.toInt) ∧
      relocation.offsets address source instruction =
        .error (.invalidTarget source (source + offset.toInt)) := by
  cases moved : instruction.branchOffsets.mapM (relocation.target source) with
  | error error =>
      rcases Outcome.mapM_eq_error_iff.1 moved with ⟨before, offset, after, isSplit, _, failed⟩
      cases invalidTarget_of_target failed
      refine .inr ⟨offset, isSplit ▸ List.mem_append_right before List.mem_cons_self, ?_, ?_⟩
      · intro holds
        rcases exists_target compact holds with ⟨target, found⟩
        cases failed.symm.trans found
      · rw [offsets, moved]
        rfl
  | ok targets =>
      have each := Outcome.forall₂_of_mapM moved
      have measured : ∃ offsets, relocation.offsets address source instruction = .ok offsets := by
        unfold offsets
        rw [moved]
        refine Outcome.exists_mapM fun target isTarget => ?_
        rcases Outcome.exists_of_mem_forall₂ each isTarget with ⟨offset, _, found⟩
        rcases movesTo_of_target compact.relocates.addresses found with ⟨index, _, _, _, atIndex⟩
        have there := compact.small index target atIndex
        rw [offset32?, if_pos (by omega)]
        exact ⟨_, rfl⟩
      rcases measured with ⟨offsets, measured⟩
      refine .inl ⟨offsets, measured, ?_⟩
      intro offset isOffset
      rcases Outcome.exists_of_mem_forall₂ each.flip isOffset with ⟨target, _, found⟩
      exact holds_of_target compact.relocates found

theorem length_offsets {address source : Nat} {instruction : Instruction} {offsets : List Int32}
    (measured : relocation.offsets address source instruction = .ok offsets) :
    offsets.length = instruction.branchOffsets.length := by
  rcases offsets_spec measured with ⟨targets, each, reaches⟩
  have sameLength := congrArg List.length reaches
  rw [List.length_map, List.length_map] at sameLength
  exact sameLength.trans each.length_eq.symm

/-! ## Decisions -/

theorem mustWiden_of_offsets {address source : Nat} {instruction : Instruction}
    {offsets : List Int32}
    (measured : relocation.offsets address source instruction = .ok offsets) :
    relocation.mustWiden address source instruction =
      match instruction.withBranchOffsets? offsets with
      | some _ => .ok false
      | none =>
          match instruction.widenedSize? with
          | some _ => .ok true
          | none => .error (.branchOutOfRange source) := by
  rw [mustWiden, measured]
  rfl

theorem moveBranch_of_offsets {address source : Nat} {instruction : Instruction}
    {offsets : List Int32}
    (measured : relocation.offsets address source instruction = .ok offsets) (long : Bool) :
    relocation.moveBranch long address source instruction =
      match if long then offsets.head?.bind instruction.widen?
        else (instruction.withBranchOffsets? offsets).map ([·]) with
      | some form => .ok form
      | none => .error (.branchOutOfRange source) := by
  rw [moveBranch, measured]
  rfl

/-- A branch is decided unless an instruction is missing, and it is widened only if it
has a long form. -/
theorem mustWiden_cases (compact : emission.Compact body relocation) {address : Nat}
    (here : address < 2 ^ 31) (source : Nat) {instruction : Instruction}
    (isBranch : instruction.isBranch = true) :
    (∃ long, relocation.mustWiden address source instruction = .ok long ∧
      (long = true → instruction.widenedSize?.isSome = true ∧
        ∀ offset ∈ instruction.branchOffsets, body.Holds (source + offset.toInt))) ∨
    ∃ offset ∈ instruction.branchOffsets, ¬ body.Holds (source + offset.toInt) ∧
      relocation.mustWiden address source instruction =
        .error (.invalidTarget source (source + offset.toInt)) := by
  rcases offsets_cases compact here source instruction with
    ⟨offsets, measured, holds⟩ | ⟨offset, isOffset, missing, failed⟩
  · left
    rw [mustWiden_of_offsets measured]
    cases moved : instruction.withBranchOffsets? offsets with
    | some form => exact ⟨false, rfl, nofun⟩
    | none =>
        have isLong := Instruction.widenedSize?_of_withBranchOffsets? isBranch
          (length_offsets measured) moved
        rcases Option.isSome_iff_exists.1 isLong with ⟨length, isLength⟩
        rw [isLength]
        exact ⟨true, rfl, fun _ => ⟨rfl, holds⟩⟩
  · refine .inr ⟨offset, isOffset, missing, ?_⟩
    rw [mustWiden, failed]
    rfl

/-- A branch that need not be widened moves in its own form. -/
theorem exists_moveBranch_of_decided {address source : Nat} {instruction : Instruction}
    (decides : relocation.mustWiden address source instruction = .ok false) :
    ∃ form, relocation.moveBranch false address source instruction = .ok form := by
  rcases Outcome.bind_eq_ok_iff.1 decides with ⟨offsets, measured, _⟩
  rw [mustWiden_of_offsets measured] at decides
  rw [moveBranch_of_offsets measured]
  cases moved : instruction.withBranchOffsets? offsets with
  | some form => exact ⟨[form], rfl⟩
  | none =>
      rw [moved] at decides
      dsimp only at decides
      split at decides
      · cases decides
      · cases decides

/-- A branch with a long form moves in it if there is room for it below 2³¹. -/
theorem exists_moveBranch_of_long (compact : emission.Compact body relocation)
    {address source : Nat} {instruction : Instruction} (isBranch : instruction.isBranch = true)
    (room : address + 3 ≤ 2 ^ 31) (isLong : instruction.widenedSize?.isSome = true)
    (holds : ∀ offset ∈ instruction.branchOffsets, body.Holds (source + offset.toInt)) :
    ∃ form, relocation.moveBranch true address source instruction = .ok form := by
  have here : address < 2 ^ 31 := by omega
  rcases offsets_cases compact here source instruction with
    ⟨offsets, measured, _⟩ | ⟨offset, isOffset, missing, _⟩
  · rw [moveBranch_of_offsets measured]
    have sameLength := length_offsets measured
    rcases offsets_spec measured with ⟨targets, _, reaches⟩
    cases offsets with
    | nil =>
        rw [Instruction.isBranch, List.eq_nil_of_length_eq_zero sameLength.symm] at isBranch
        cases isBranch
    | cons offset rest =>
        -- The target has an address, so the jump goes back by no more than to zero.
        rcases List.map_eq_cons_iff.1 reaches.symm with ⟨target, _, _, reached, _⟩
        have back : (0 : Int) ≤ address + offset.toInt :=
          (Int.natCast_nonneg target).trans_eq reached
        rcases Instruction.exists_widen? isLong (show -2147483648 ≤ offset.toInt - 3 by omega)
          with ⟨form, widens⟩
        exact ⟨form, by rw [if_pos rfl, List.head?_cons, Option.bind_some, widens]⟩
  · exact absurd (holds offset isOffset) missing

end Relocation

end ValueForm
