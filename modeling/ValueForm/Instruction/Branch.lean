import ValueForm.Instruction.Codec

/-!
# Branches

The jump offsets of an instruction, the same instruction with other offsets,
and the long form of a branch whose offset does not fit into 16 bits: a
conditional branch becomes the opposite test jumping over a long jump.
-/

namespace ValueForm

/-- A 32-bit number as a 16-bit number, if it fits. -/
def narrowOffset? (offset : Int32) : Option Int16 :=
  if -32768 ≤ offset.toInt ∧ offset.toInt < 32768 then some (Int16.ofInt offset.toInt) else none

/-- A number as a 32-bit offset, if it fits. -/
def offset32? (offset : Int) : Option Int32 :=
  if -2147483648 ≤ offset ∧ offset < 2147483648 then some (Int32.ofInt offset) else none

/-- The test that holds exactly when the given one fails. -/
def BranchTest.inverse : BranchTest → BranchTest
  | .eq => .ne
  | .ne => .eq
  | .lt => .ge
  | .ge => .lt
  | .gt => .le
  | .le => .gt
  | .intEq => .intNe
  | .intNe => .intEq
  | .intLt => .intGe
  | .intGe => .intLt
  | .intGt => .intLe
  | .intLe => .intGt
  | .refEq => .refNe
  | .refNe => .refEq
  | .null => .nonNull
  | .nonNull => .null

namespace Instruction

/-- The jump offsets of an instruction; of a switch the default comes first and
the table follows in order. -/
def branchOffsets : Instruction → List Int32
  | .branch _ offset | .goto offset | .jsr offset => [offset.toInt32]
  | .gotoWide offset | .jsrWide offset => [offset]
  | .tableSwitch fallback _ _ offsets => fallback :: offsets
  | .lookupSwitch fallback pairs => fallback :: pairs.map (·.2)
  | _ => []

/-- Whether an instruction carries jump offsets. -/
def isBranch (instruction : Instruction) : Bool :=
  !instruction.branchOffsets.isEmpty

/-- The instruction with other jump offsets, in the order of `branchOffsets`,
if its encoding has room for them. An instruction without offsets stays as it
is. -/
def withBranchOffsets? (instruction : Instruction) (offsets : List Int32) : Option Instruction :=
  match instruction, offsets with
  | .branch test _, offset :: _ => (narrowOffset? offset).map (.branch test)
  | .goto _, offset :: _ => (narrowOffset? offset).map .goto
  | .jsr _, offset :: _ => (narrowOffset? offset).map .jsr
  | .gotoWide _, offset :: _ => some (.gotoWide offset)
  | .jsrWide _, offset :: _ => some (.jsrWide offset)
  | .tableSwitch _ low high _, fallback :: rest => some (.tableSwitch fallback low high rest)
  | .lookupSwitch _ pairs, fallback :: rest =>
      if rest.length = pairs.length then
        some (.lookupSwitch fallback (pairs.zipWith (fun (key, _) offset => (key, offset)) rest))
      else
        none
  | other, offsets => if other.isBranch && offsets.isEmpty then none else some other

/-- The distance from a conditional branch over the long jump behind it. -/
def skipDistance : Int16 := 8

/-- The long form of a branch; `offset` counts from the start of the form. -/
def widen? (instruction : Instruction) (offset : Int32) : Option (List Instruction) :=
  match instruction with
  | .goto _ | .gotoWide _ => some [.gotoWide offset]
  | .jsr _ | .jsrWide _ => some [.jsrWide offset]
  | .branch test _ => do
      let jump ← offset32? (offset.toInt - 3)
      return [.branch test.inverse skipDistance, .gotoWide jump]
  | _ => none

/-- The length of the long form of a branch. -/
def widenedSize? (instruction : Instruction) : Option Nat :=
  (instruction.widen? 0).map (·.foldl (fun length part => length + part.size 0) 0)

end Instruction

end ValueForm
