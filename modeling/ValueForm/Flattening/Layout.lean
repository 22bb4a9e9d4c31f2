import ValueForm.Flattening.Emission

/-!
# Layout

Addresses for emitted code. A branch whose target has moved out of its reach
gets its long form; that moves code, so branches are widened until all of the
others reach their targets. Each round widens at least one branch or is the
last, so there is at most one round more than there are segments.

Addresses are natural numbers. Those of a body with fewer than 2²⁷ bytes of code
need no more than 31 bits, in whatever layout.
-/

namespace ValueForm

/-- Where the parts of a body stand after layout. -/
structure Layout where
  /-- The addresses of the segments. -/
  starts : Array Nat
  /-- The end of the code. -/
  stop : Nat
  /-- The segments whose branch has its long form. -/
  widened : Array Bool

/-- The length of a piece at an address. -/
def Piece.size (widened : Bool) (address : Nat) : Piece → Nat
  | .fixed instruction => instruction.size address
  | .branch instruction _ =>
      if widened then instruction.widenedSize?.getD 0 else instruction.size address

namespace Emission

/-- The end of instructions laid out from an address. -/
def instructionsEnd (start : Nat) (instructions : List Instruction) : Nat :=
  instructions.foldl (fun address instruction => address + instruction.size address) start

/-- The end of a segment laid out from an address. -/
def segmentEnd (widened : Bool) (start : Nat) (pieces : List Piece) : Nat :=
  pieces.foldl (fun address piece => address + piece.size widened address) start

/-- The branches of a segment laid out from an address, with their new and old
addresses. -/
def segmentBranches (widened : Bool) : (start : Nat) → List Piece → List (Nat × Instruction × Nat)
  | _, [] => []
  | address, piece :: rest =>
      let others := segmentBranches widened (address + piece.size widened address) rest
      match piece with
      | .fixed _ => others
      | .branch instruction old => (address, instruction, old) :: others

/-- The addresses of segments and their end, when the segments in `widened` are
long. -/
def place (emission : Emission) (widened : Array Bool) : Layout :=
  let start := instructionsEnd 0 emission.prologue
  let (starts, stop) := (emission.segments.zip widened).foldl
    (fun (starts, address) (pieces, long) =>
      (starts.push address, segmentEnd long address pieces))
    (#[], start)
  ⟨starts, stop, widened⟩

end Emission

/-- Where the instructions of a body have gone. -/
structure Relocation where
  addresses : AddressMap
  /-- The length of the code before. -/
  oldLength : Nat
  layout : Layout

namespace Relocation

/-- The new address of the instruction at an old one. -/
def address? (relocation : Relocation) (old : Nat) : Option Nat := do
  let index ← relocation.addresses[old]?
  relocation.layout.starts[index]?

/-- The new address at an old one, where the end of the code also counts. -/
def boundary? (relocation : Relocation) (old : Nat) : Option Nat :=
  if old = relocation.oldLength then some relocation.layout.stop else relocation.address? old

/-- The new target of a jump from the old address `source`. -/
def target (relocation : Relocation) (source : Nat) (offset : Int32) : Except FlattenError Nat :=
  let old := (source : Int) + offset.toInt
  let moved :=
    match old with
    | .ofNat address =>
        if address < relocation.oldLength then relocation.address? address else none
    | .negSucc _ => none
  match moved with
  | some address => .ok address
  | none => .error (.invalidTarget source old)

/-- The offsets of a branch that moved from the old address `source` to
`address`. -/
def offsets (relocation : Relocation) (address source : Nat) (instruction : Instruction) :
    Except FlattenError (List Int32) := do
  let targets ← instruction.branchOffsets.mapM (relocation.target source)
  targets.mapM fun (target : Nat) =>
    match offset32? (target - address) with
    | some offset => .ok offset
    | none => .error (.branchOutOfRange source)

/-- Whether a branch has to take its long form. -/
def mustWiden (relocation : Relocation) (address source : Nat) (instruction : Instruction) :
    Except FlattenError Bool := do
  let offsets ← relocation.offsets address source instruction
  match instruction.withBranchOffsets? offsets with
  | some _ => return false
  | none =>
      match instruction.widenedSize? with
      | some _ => return true
      | none => .error (.branchOutOfRange source)

/-- A moved branch with its new offsets, in its long form if its segment is
widened. -/
def moveBranch (relocation : Relocation) (widened : Bool) (address source : Nat)
    (instruction : Instruction) : Except FlattenError (List Instruction) := do
  let offsets ← relocation.offsets address source instruction
  let moved :=
    if widened then offsets.head?.bind instruction.widen?
    else (instruction.withBranchOffsets? offsets).map ([·])
  match moved with
  | some form => return form
  | none => .error (.branchOutOfRange source)

/-- The instructions of a segment from an address on; `done` holds those so
far, last one first. -/
def moveSegment (relocation : Relocation) (widened : Bool) :
    (address : Nat) → (done : List (List Instruction)) → List Piece →
    Except FlattenError (List Instruction)
  | _, done, [] => .ok done.reverse.flatten
  | address, done, piece :: rest => do
      let form ←
        match piece with
        | .fixed instruction => .ok [instruction]
        | .branch instruction source => relocation.moveBranch widened address source instruction
      moveSegment relocation widened (address + piece.size widened address) (form :: done) rest

end Relocation

namespace Emission

/-- Widen the branches of one segment that do not reach their targets, leaving
a note for each. -/
def widenSegment (relocation : Relocation) (index : Nat) (pieces : List Piece)
    (widened : Array Bool) : Flatten (Array Bool) := do
  if widened[index]?.getD false then return widened
  let start := relocation.layout.starts[index]?.getD 0
  (segmentBranches false start pieces).foldlM
    (fun widened (address, instruction, source) => do
      if ← Flatten.ofExcept (relocation.mustWiden address source instruction) then
        Flatten.leave (.widening source)
        return widened.setIfInBounds index true
      else
        return widened)
    widened

/-- One round: widen the branches that do not reach their targets in the
layout given. -/
def widenRound (emission : Emission) (relocation : Relocation) : Flatten (Array Bool) :=
  emission.segments.toList.zipIdx.foldlM
    (fun widened (pieces, index) => widenSegment relocation index pieces widened)
    relocation.layout.widened

/-- Widen branches, for at most `rounds` rounds, until a layout is stable. -/
def settle (emission : Emission) (addresses : AddressMap) (oldLength : Nat) :
    (rounds : Nat) → (widened : Array Bool) → Flatten Relocation
  | 0, widened => return ⟨addresses, oldLength, emission.place widened⟩
  | rounds + 1, widened => do
      let relocation : Relocation := ⟨addresses, oldLength, emission.place widened⟩
      let next ← emission.widenRound relocation
      if next = widened then return relocation
      else emission.settle addresses oldLength rounds next

/-- Lay emitted code out. -/
def layOut (emission : Emission) (addresses : AddressMap) (oldLength : Nat) :
    Flatten Relocation := do
  let count := emission.segments.size
  let relocation ← emission.settle addresses oldLength (count + 1) (Array.replicate count false)
  if 65535 < relocation.layout.stop then throw (.codeTooLarge relocation.layout.stop)
  return relocation

/-- The instructions of emitted code after its layout. -/
def assemble (emission : Emission) (relocation : Relocation) :
    Except FlattenError (List Instruction) := do
  let layout := relocation.layout
  let segments ← emission.segments.toList.zipIdx.mapM fun (pieces, index) =>
    relocation.moveSegment (layout.widened[index]?.getD false) (layout.starts[index]?.getD 0) []
      pieces
  return emission.prologue ++ segments.flatten

/-- The instructions that follow a widened conditional branch. They become
targets of jumps. -/
def newTargets (emission : Emission) (layout : Layout) : List Nat :=
  emission.segments.toList.zipIdx.filterMap fun (pieces, index) =>
    let conditional := pieces.any fun
      | .branch (.branch ..) _ => true
      | _ => false
    if layout.widened[index]?.getD false && conditional then some (index + 1) else none

end Emission

end ValueForm
