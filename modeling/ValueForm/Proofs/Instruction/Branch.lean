import ValueForm.Instruction.Branch
import ValueForm.Proofs.Instruction.Code

/-!
# Branches that move

A branch with other offsets is the same branch elsewhere: it has the offsets it
was given, the tests and keys it had, and its size.

`Instruction.chosen?` gives branches their meaning: the offset that control
takes, given how the operands compare. A branch that moved, in its own form or
in its long one, leads where the moved targets lie.
-/

namespace ValueForm

theorem toInt32_of_narrowOffset? {offset : Int32} {narrow : Int16}
    (fits : narrowOffset? offset = some narrow) : narrow.toInt32 = offset := by
  unfold narrowOffset? at fits
  split at fits
  · next bounds =>
      cases fits
      apply Int32.toInt_inj.1
      rw [Int16.toInt_toInt32, Int16.toInt_ofInt_of_le (by omega) (by omega)]
  · cases fits

theorem toInt_of_offset32? {offset : Int} {narrow : Int32}
    (fits : offset32? offset = some narrow) : narrow.toInt = offset := by
  unfold offset32? at fits
  split at fits
  · next bounds =>
      cases fits
      exact Int32.toInt_ofInt_of_le (by omega) (by omega)
  · cases fits

/-! ## Where control goes -/

/-- How the operands of a branch compare: a number with zero or with another
number, a reference with another or with null, and the key of a switch. -/
structure BranchOperands where
  order : Ordering
  isSame : Bool
  isNull : Bool
  key : Int32

/-- Whether a test holds of its operands. -/
def BranchTest.holds (operands : BranchOperands) : BranchTest → Bool
  | .eq | .intEq => operands.order.isEq
  | .ne | .intNe => operands.order.isNe
  | .lt | .intLt => operands.order.isLT
  | .ge | .intGe => operands.order.isGE
  | .gt | .intGt => operands.order.isGT
  | .le | .intLe => operands.order.isLE
  | .refEq => operands.isSame
  | .refNe => !operands.isSame
  | .null => operands.isNull
  | .nonNull => !operands.isNull

/-- The opposite test holds when the test fails. -/
@[simp]
theorem BranchTest.holds_inverse (operands : BranchOperands) (test : BranchTest) :
    test.inverse.holds operands = !test.holds operands := by
  rcases operands with ⟨order, isSame, isNull, key⟩
  cases test <;> cases order <;> cases isSame <;> cases isNull <;> rfl

/-- The offset that control takes from an instruction, unless it goes on to the
next. -/
def Instruction.chosen? (operands : BranchOperands) : Instruction → Option Int32
  | .branch test offset => if test.holds operands then some offset.toInt32 else none
  | .goto offset | .jsr offset => some offset.toInt32
  | .gotoWide offset | .jsrWide offset => some offset
  | .tableSwitch fallback low high offsets =>
      if low ≤ operands.key ∧ operands.key ≤ high then
        some (offsets[(operands.key.toInt - low.toInt).toNat]?.getD fallback)
      else some fallback
  | .lookupSwitch fallback pairs => some ((pairs.lookup operands.key).getD fallback)
  | _ => none

namespace Located

/-- The addresses an instruction can jump to, in the order of its offsets. -/
def targets (located : Located) : List Int :=
  located.instruction.branchOffsets.map fun offset => located.address + offset.toInt

/-- Where control goes from an instruction. -/
def leads (operands : BranchOperands) (located : Located) : Int :=
  match located.instruction.chosen? operands with
  | some offset => located.address + offset.toInt
  | none => located.address + located.instruction.size located.address

theorem leads_branch (operands : BranchOperands) (address : Nat) (test : BranchTest)
    (offset : Int16) : leads operands ⟨address, .branch test offset⟩ =
      if test.holds operands then address + offset.toInt else (address + 3 : Nat) := by
  rw [leads, Instruction.chosen?]
  cases test.holds operands with
  | true => exact congrArg (fun offset => (address : Int) + offset) (Int16.toInt_toInt32 offset)
  | false => rfl

/-- Where control leaves a run of instructions that it enters at the first. -/
def leaves (operands : BranchOperands) : List Located → Option Int
  | [] => none
  | [last] => some (last.leads operands)
  | first :: second :: rest =>
      if first.leads operands = second.address then leaves operands (second :: rest)
      else some (first.leads operands)

end Located

namespace Instruction

/-! ## Other offsets -/

/-- The second branch is the first with other offsets. -/
inductive SameBranch : Instruction → Instruction → Prop
  | branch {test : BranchTest} {old new : Int16} : SameBranch (.branch test old) (.branch test new)
  | goto {old new : Int16} : SameBranch (.goto old) (.goto new)
  | gotoWide {old new : Int32} : SameBranch (.gotoWide old) (.gotoWide new)
  | jsr {old new : Int16} : SameBranch (.jsr old) (.jsr new)
  | jsrWide {old new : Int32} : SameBranch (.jsrWide old) (.jsrWide new)
  | tableSwitch {low high fallback fallback' : Int32} {offsets offsets' : List Int32}
      (length : offsets'.length = offsets.length) :
      SameBranch (.tableSwitch fallback low high offsets)
        (.tableSwitch fallback' low high offsets')
  | lookupSwitch {fallback fallback' : Int32} {pairs pairs' : List (Int32 × Int32)}
      (keys : pairs'.map (·.1) = pairs.map (·.1)) :
      SameBranch (.lookupSwitch fallback pairs) (.lookupSwitch fallback' pairs')

theorem map_zipWith_keys {pairs : List (Int32 × Int32)} {offsets : List Int32}
    (length : offsets.length = pairs.length) :
    let moved := pairs.zipWith (fun (key, _) offset => (key, offset)) offsets
    moved.map (·.1) = pairs.map (·.1) ∧ moved.map (·.2) = offsets := by
  induction pairs generalizing offsets with
  | nil =>
      cases List.eq_nil_of_length_eq_zero length
      exact ⟨rfl, rfl⟩
  | cons pair pairs ih =>
      rcases List.exists_cons_of_length_eq_add_one length with ⟨offset, rest, rfl⟩
      rcases ih (Nat.succ.inj length) with ⟨keys, others⟩
      exact ⟨congrArg (pair.1 :: ·) keys, congrArg (offset :: ·) others⟩

theorem branchOffsets_of_not_branch {instruction : Instruction}
    (isPlain : instruction.isBranch = false) : instruction.branchOffsets = [] := by
  rw [isBranch, Bool.not_eq_false'] at isPlain
  exact List.isEmpty_iff.1 isPlain

/-- Offsets take the place of those of a branch. -/
theorem sameBranch_of_withBranchOffsets? {instruction moved : Instruction} {offsets : List Int32}
    (isBranch : instruction.isBranch = true)
    (length : offsets.length = instruction.branchOffsets.length)
    (placed : instruction.withBranchOffsets? offsets = some moved) :
    SameBranch instruction moved ∧ moved.branchOffsets = offsets := by
  cases instruction with
  | branch test offset | goto offset | jsr offset =>
      rcases List.length_eq_one_iff.1 length with ⟨other, rfl⟩
      rcases Option.map_eq_some_iff.1 placed with ⟨narrow, fits, rfl⟩
      exact ⟨by constructor, by rw [branchOffsets, toInt32_of_narrowOffset? fits]⟩
  | gotoWide offset | jsrWide offset =>
      rcases List.length_eq_one_iff.1 length with ⟨other, rfl⟩
      cases placed
      exact ⟨by constructor, rfl⟩
  | tableSwitch fallback low high table =>
      rcases List.exists_cons_of_length_eq_add_one length with ⟨other, rest, rfl⟩
      cases placed
      exact ⟨.tableSwitch (Nat.succ.inj length), rfl⟩
  | lookupSwitch fallback pairs =>
      rcases List.exists_cons_of_length_eq_add_one length with ⟨other, rest, rfl⟩
      have sameLength : rest.length = pairs.length := by
        simpa [branchOffsets] using length
      rw [withBranchOffsets?, if_pos sameLength] at placed
      cases placed
      rcases map_zipWith_keys sameLength with ⟨keys, others⟩
      exact ⟨.lookupSwitch keys, congrArg (other :: ·) others⟩
  | _ => cases isBranch

namespace SameBranch

variable {first second : Instruction}

theorem size_eq (same : SameBranch first second) (address : Nat) :
    second.size address = first.size address := by
  cases same with
  | tableSwitch length => simp only [size, length]
  | lookupSwitch keys =>
      have length := congrArg List.length keys
      rw [List.length_map, List.length_map] at length
      simp only [size, length]
  | _ => rfl

theorem wellFormed (same : SameBranch first second) (wellFormed : first.WellFormed) :
    second.WellFormed := by
  cases same with
  | tableSwitch length =>
      rw [WellFormed, length]
      exact wellFormed
  | lookupSwitch keys =>
      have length := congrArg List.length keys
      rw [List.length_map, List.length_map] at length
      rw [WellFormed, length]
      exact wellFormed
  | _ => trivial

theorem lookup_of_keys {related : Int32 → Int32 → Prop} {pairs pairs' : List (Int32 × Int32)}
    (keys : pairs'.map (·.1) = pairs.map (·.1))
    (offsets : List.Forall₂ related (pairs.map (·.2)) (pairs'.map (·.2))) (key : Int32) :
    Option.Rel related (pairs.lookup key) (pairs'.lookup key) := by
  induction pairs generalizing pairs' with
  | nil =>
      cases List.map_eq_nil_iff.1 keys
      exact .none
  | cons pair pairs ih =>
      rcases List.map_eq_cons_iff.1 keys with ⟨pair', pairs', rfl, sameKey, otherKeys⟩
      rcases List.forall₂_cons.1 offsets with ⟨here, others⟩
      rcases pair with ⟨first, offset⟩
      rcases pair' with ⟨first', offset'⟩
      dsimp only at sameKey
      subst sameKey
      rw [List.lookup_cons, List.lookup_cons]
      cases key == first' with
      | true => exact .some here
      | false => exact ih otherKeys others

theorem getElem?_rel {related : Int32 → Int32 → Prop} {table table' : List Int32}
    (each : List.Forall₂ related table table') (index : Nat) :
    Option.Rel related table[index]? table'[index]? := by
  induction each generalizing index with
  | nil => exact .none
  | cons here _ ih =>
      cases index with
      | zero => exact .some here
      | succ index => exact ih index

theorem getD_rel {related : Int32 → Int32 → Prop} {found found' : Option Int32}
    {fallback fallback' : Int32} (each : Option.Rel related found found')
    (otherwise : related fallback fallback') :
    related (found.getD fallback) (found'.getD fallback') := by
  cases each with
  | some here => exact here
  | none => exact otherwise

/-- The same branch takes the offset in the same place. -/
theorem chosen? {related : Int32 → Int32 → Prop} (same : SameBranch first second)
    (offsets : List.Forall₂ related first.branchOffsets second.branchOffsets)
    (operands : BranchOperands) :
    Option.Rel related (first.chosen? operands) (second.chosen? operands) := by
  cases same with
  | branch =>
      rw [Instruction.chosen?, Instruction.chosen?]
      split
      · exact .some (List.forall₂_cons.1 offsets).1
      · exact .none
  | goto | gotoWide | jsr | jsrWide => exact .some (List.forall₂_cons.1 offsets).1
  | tableSwitch =>
      rcases List.forall₂_cons.1 offsets with ⟨otherwise, table⟩
      rw [Instruction.chosen?, Instruction.chosen?]
      split
      · exact .some (getD_rel (getElem?_rel table _) otherwise)
      · exact .some otherwise
  | lookupSwitch keys =>
      rcases List.forall₂_cons.1 offsets with ⟨otherwise, table⟩
      exact .some (getD_rel (lookup_of_keys keys table operands.key) otherwise)

end SameBranch

/-! ## Branches in their place -/

/-- The instructions that stand between two addresses are a branch aimed at
`targets`, or its long form. -/
inductive Redirected (start stop : Nat) : Instruction → List Nat → List Instruction → Prop
  | moved {instruction moved : Instruction} {targets : List Nat}
      (same : SameBranch instruction moved)
      (reaches : Located.targets ⟨start, moved⟩ = targets.map Int.ofNat)
      (ends : start + moved.size start = stop) :
      Redirected start stop instruction targets [moved]
  | goto {old : Int16} {offset : Int32} {target : Nat} (reaches : start + offset.toInt = target)
      (ends : start + 5 = stop) :
      Redirected start stop (.goto old) [target] [.gotoWide offset]
  | jsr {old : Int16} {offset : Int32} {target : Nat} (reaches : start + offset.toInt = target)
      (ends : start + 5 = stop) :
      Redirected start stop (.jsr old) [target] [.jsrWide offset]
  /-- The opposite test jumps over a long jump. -/
  | branch {test : BranchTest} {old skip : Int16} {offset : Int32} {target : Nat}
      (skips : start + skip.toInt = stop) (reaches : (start + 3 : Nat) + offset.toInt = target)
      (ends : start + 8 = stop) :
      Redirected start stop (.branch test old) [target]
        [.branch test.inverse skip, .gotoWide offset]

theorem branchOffsets_of_widen? {instruction : Instruction} {offset : Int32}
    {form : List Instruction} (succeeded : instruction.widen? offset = some form) :
    ∃ old, instruction.branchOffsets = [old] := by
  cases instruction with
  | goto | jsr | gotoWide | jsrWide | branch => exact ⟨_, rfl⟩
  | _ => cases succeeded

/-- The long form of a branch stands where it should. -/
theorem redirected_of_widen? {instruction : Instruction} {offset : Int32}
    {form : List Instruction} {start target : Nat}
    (succeeded : instruction.widen? offset = some form)
    (reaches : start + offset.toInt = target) :
    Redirected start (start + instruction.widenedSize?.getD 0) instruction [target] form := by
  cases instruction with
  | goto old =>
      cases succeeded
      exact .goto reaches rfl
  | jsr old =>
      cases succeeded
      exact .jsr reaches rfl
  | gotoWide old =>
      cases succeeded
      exact .moved .gotoWide (congrArg ([·]) reaches) rfl
  | jsrWide old =>
      cases succeeded
      exact .moved .jsrWide (congrArg ([·]) reaches) rfl
  | branch test old =>
      rcases Option.bind_eq_some_iff.1 succeeded with ⟨jump, fits, ended⟩
      cases ended
      have distance := toInt_of_offset32? fits
      exact .branch rfl (by omega) rfl
  | _ => cases succeeded

theorem forall₂_of_targets {related : Int32 → Nat → Prop} {start : Nat} {old new : List Int32}
    {targets : List Nat} (each : List.Forall₂ related old targets)
    (reaches : new.map (fun offset => (start : Int) + offset.toInt) = targets.map Int.ofNat) :
    List.Forall₂ (fun offset offset' => ∃ target : Nat, related offset target ∧
      (start : Int) + offset'.toInt = target) old new := by
  induction each generalizing new with
  | nil =>
      cases List.map_eq_nil_iff.1 reaches
      exact .nil
  | cons here _ ih =>
      rcases List.map_eq_cons_iff.1 reaches with ⟨offset, others, rfl, reached, rest⟩
      exact .cons ⟨_, here, reached⟩ (ih rest)

/-- A branch in its place leads where its targets lie. -/
theorem Redirected.leaves {start stop : Nat} {instruction : Instruction} {targets : List Nat}
    {form : List Instruction} (redirected : Redirected start stop instruction targets form)
    {related : Int32 → Nat → Prop}
    (each : List.Forall₂ related instruction.branchOffsets targets) (operands : BranchOperands) :
    ∃ address : Nat, Located.leaves operands (Code.locate start form) = some (address : Int) ∧
      match instruction.chosen? operands with
      | some offset => related offset address
      | none => address = stop := by
  cases redirected with
  | @moved _ moved _ same reaches ends =>
      have chosen := same.chosen? (forall₂_of_targets each reaches) operands
      rw [Code.locate, Code.locate, Located.leaves, Located.leads]
      dsimp only
      generalize instruction.chosen? operands = old, moved.chosen? operands = new at chosen
      cases chosen with
      | some here =>
          rcases here with ⟨target, isTarget, reached⟩
          exact ⟨target, congrArg some reached, isTarget⟩
      | none => exact ⟨stop, congrArg (fun address : Nat => some (address : Int)) ends, rfl⟩
  | goto reaches ends => exact ⟨_, congrArg some reaches, (List.forall₂_cons.1 each).1⟩
  | jsr reaches ends => exact ⟨_, congrArg some reaches, (List.forall₂_cons.1 each).1⟩
  | @branch test old skip offset target skips reaches ends =>
      rw [Code.locate, Code.locate, Located.leaves, Located.leads_branch, BranchTest.holds_inverse,
        chosen?]
      cases test.holds operands with
      | true =>
          -- The opposite test fails, and control goes on to the long jump.
          refine ⟨target, ?_, (List.forall₂_cons.1 each).1⟩
          rw [if_pos]
          · exact congrArg some reaches
          · rfl
      | false =>
          refine ⟨stop, ?_, rfl⟩
          rw [if_neg]
          · exact congrArg some skips
          · -- The skip leads past the long jump and not to it.
            intro isNext
            have skipped : (start : Int) + skip.toInt = (start + 3 : Nat) := isNext
            omega

end Instruction

end ValueForm
