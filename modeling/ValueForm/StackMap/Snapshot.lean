import Std.Data.TreeMap
import ValueForm.StackMap.Frame

/-!
# Frames at absolute addresses

A snapshot is a frame with its address and its complete locals.
`StackMapFrame.expand` unfolds a table into snapshots, and
`SnapshotSet.encode?` folds snapshots back into a table, choosing for each the
shortest shape.
-/

namespace ValueForm

/-- The locals and the stack at some address. A `long` or `double` is one
entry. -/
structure FrameTypes where
  locals : List VerificationType
  stack : List VerificationType
  deriving DecidableEq, Repr

/-- The types at an address. -/
structure Snapshot where
  address : Nat
  types : FrameTypes
  deriving DecidableEq, Repr

namespace StackMapFrame

/-- The types a frame describes, given the locals of the frame before it. -/
def types (previous : List VerificationType) : StackMapFrame → FrameTypes
  | .same _ => ⟨previous, []⟩
  | .sameExtended _ => ⟨previous, []⟩
  | .sameItem _ item => ⟨previous, [item]⟩
  | .sameItemExtended _ item => ⟨previous, [item]⟩
  | .chop extra _ => ⟨previous.take (previous.length - (extra.val + 1)), []⟩
  | .append _ locals => ⟨previous ++ locals, []⟩
  | .full _ locals stack => ⟨locals, stack⟩

/-- Unfold frames from address `next` on; `done` holds the snapshots so far,
last one first. -/
def expandFrom : (next : Nat) → (previous : List VerificationType) → (done : List Snapshot) →
    List StackMapFrame → List Snapshot
  | _, _, done, [] => done.reverse
  | next, previous, done, frame :: rest =>
      let address := next + frame.delta.toNat
      let types := frame.types previous
      expandFrom (address + 1) types.locals (⟨address, types⟩ :: done) rest

/-- The snapshots of a table, given the locals at method entry. -/
def expand (initial : List VerificationType) (table : List StackMapFrame) : List Snapshot :=
  expandFrom 0 initial [] table

/-- The shortest frame for given types, relative to the locals before. -/
def shortest (previous : List VerificationType) (types : FrameTypes) (delta : UInt16) :
    StackMapFrame :=
  match types.stack with
  | [] =>
      if types.locals = previous then
        if small : delta.toNat < 64 then .same ⟨delta.toNat, small⟩ else .sameExtended delta
      else if previous.isPrefixOf types.locals ∧ types.locals.length ≤ previous.length + 3 then
        .append delta (types.locals.drop previous.length)
      else if types.locals.isPrefixOf previous then
        match previous.length - types.locals.length with
        | 1 => .chop 0 delta
        | 2 => .chop 1 delta
        | 3 => .chop 2 delta
        | _ => .full delta types.locals []
      else .full delta types.locals []
  | [item] =>
      if types.locals = previous then
        if small : delta.toNat < 64 then .sameItem ⟨delta.toNat, small⟩ item
        else .sameItemExtended delta item
      else .full delta types.locals [item]
  | stack => .full delta types.locals stack

end StackMapFrame

/-- Snapshots by address. -/
abbrev SnapshotSet := Std.TreeMap Nat FrameTypes

namespace SnapshotSet

/-- Put types at an address; they take the place of earlier ones there. -/
def record (snapshots : SnapshotSet) (snapshot : Snapshot) : SnapshotSet :=
  snapshots.insert snapshot.address snapshot.types

/-- Fold snapshots into frames from address `next` on; `done` holds the frames
so far, last one first. -/
def encodeFrom : (next : Nat) → (previous : List VerificationType) →
    (done : List StackMapFrame) → List (Nat × FrameTypes) → List StackMapFrame
  | _, _, done, [] => done.reverse
  | next, previous, done, (address, types) :: rest =>
      let frame := StackMapFrame.shortest previous types (UInt16.ofNat (address - next))
      encodeFrom (address + 1) types.locals (frame :: done) rest

/-- The table of some snapshots, given the locals at method entry. There is no
table without snapshots. -/
def encode? (initial : List VerificationType) (snapshots : SnapshotSet) :
    Option (List StackMapFrame) :=
  if snapshots.isEmpty then none else some (encodeFrom 0 initial [] snapshots.toList)

end SnapshotSet

end ValueForm
