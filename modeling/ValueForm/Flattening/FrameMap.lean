import ValueForm.StackMap.Snapshot
import ValueForm.Analysis.Flow
import ValueForm.Flattening.Layout

/-!
# Stack maps of flattened bodies

The frames of a stack map table are carried over to the flattened body: they
move with their instructions, and where the analysis knows an instance of a
value-capable class the type follows the form that instance now has. The
instructions that became jump targets by widening get frames that are derived
from the analysis alone.
-/

namespace ValueForm

/-- The form an instance of a value-capable class has in flattened code. -/
inductive InstanceForm where
  | value
  | reference
  /-- A value on some paths and a reference on others. -/
  | mixed
  /-- Allocated by the instruction at this position and not yet constructed. -/
  | unconstructed (index : Nat)
  deriving DecidableEq, Repr

/-- What is needed to carry frames over. -/
structure FrameMap where
  body : MethodBody
  analysis : AnalysisResult
  relocation : Relocation

namespace FrameMap

/-- The frame the analysis found before an instruction. -/
def frame? (frameMap : FrameMap) (index : Nat) : Option Frame :=
  frameMap.analysis.frames[index]?.join

/-- The new address of an instruction. -/
def address? (frameMap : FrameMap) (index : Nat) : Option Nat :=
  frameMap.relocation.layout.starts[index]?

/-- Whether an instruction allocates an object. -/
def allocates (frameMap : FrameMap) (index : Nat) : Bool :=
  match frameMap.body.instructions[index]? with
  | some ⟨_, .new _⟩ => true
  | _ => false

/-- The form of an instance with a given provenance. -/
def form (frameMap : FrameMap) (provenance : SiteSet) : InstanceForm :=
  let registry := frameMap.analysis.registry
  let isValue := provenance.toList.any registry.isFree
  let isReference := provenance.toList.any registry.isForced
  match isValue, isReference with
  | true, false => .value
  | true, true => .mixed
  | false, true => .reference
  | false, false =>
      match provenance.toList with
      | [.instruction index] =>
          if frameMap.allocates index then .unconstructed index else .reference
      | _ => .reference

/-- An object of a class. -/
def object (className : String) : Flatten VerificationType := do
  return .object (← Flatten.internClass className)

/-- An object allocated at an old address, where the allocation is now. -/
def allocatedAt (frameMap : FrameMap) (old : UInt16) : VerificationType :=
  match frameMap.relocation.address? old.toNat with
  | some address => .uninitialized (UInt16.ofNat address)
  | none => .uninitialized old

/-- The type of a value that the analysis found. -/
def typeOf (frameMap : FrameMap) : Value → Flatten VerificationType
  | .int => return .integer
  | .float => return .float
  | .long => return .long
  | .double => return .double
  | .null => return .null
  | .reference => object "java/lang/Object"
  | .uninitialized => return .top
  | .returnAddress => return .top
  | .precise type =>
      match type.internalName? with
      | some name => object name
      | none => return .top
  | .capable className provenance =>
      match frameMap.form provenance with
      | .value => object (valueClassName className)
      | .reference => object className
      | .mixed => return .top
      | .unconstructed index =>
          match frameMap.body.instructions[index]? with
          | some located => return frameMap.allocatedAt (UInt16.ofNat located.address)
          | none => return .top

/-- The type of an entry of a frame, given what the analysis knows about it. -/
def carry (frameMap : FrameMap) (type : VerificationType) (value : Option Value) :
    Flatten VerificationType :=
  match type, value with
  | .uninitialized address, _ => return frameMap.allocatedAt address
  | .object _, some (.capable className provenance) =>
      match frameMap.form provenance with
      | .value => object (valueClassName className)
      | .mixed => return .top
      | .reference | .unconstructed _ => return type
  | _, _ => return type

/-- Locals paired with the slots they start at. -/
def withSlots : (slot : Nat) → List VerificationType → List (Nat × VerificationType)
  | _, [] => []
  | slot, type :: rest => (slot, type) :: withSlots (slot + type.slots) rest

/-- The locals of a frame, carried over. -/
def carryLocals (frameMap : FrameMap) (frame : Option Frame) (locals : List VerificationType) :
    Flatten (List VerificationType) :=
  (withSlots 0 locals).mapM fun (slot, type) =>
    frameMap.carry type (frame.bind fun frame => frame.locals[slot]?)

/-- The stack of a frame, carried over. What the analysis knows counts only if
its stack is as high. -/
def carryStack (frameMap : FrameMap) (frame : Option Frame) (stack : List VerificationType) :
    Flatten (List VerificationType) :=
  let values :=
    match frame with
    | some frame =>
        if frame.stack.length = stack.length then frame.stack.reverse.map some
        else stack.map fun _ => none
    | none => stack.map fun _ => none
  (stack.zip values).mapM fun (type, value) => frameMap.carry type value

/-- The values at the start of a slot, from a slot on. The second slot of a
`long` or `double` starts no value. -/
def slotValues (locals : Array Value) : (fuel : Nat) → (slot : Nat) → List Value
  | 0, _ => []
  | fuel + 1, slot =>
      match locals[slot]? with
      | some value => value :: slotValues locals fuel (slot + value.size)
      | none => []

/-- Drop unusable types at the end. -/
def dropTrailingTop (types : List VerificationType) : List VerificationType :=
  (types.reverse.dropWhile (· == .top)).reverse

/-- The types of a frame that the analysis found. -/
def typesOf (frameMap : FrameMap) (frame : Frame) : Flatten FrameTypes := do
  let locals ← (slotValues frame.locals frame.locals.size 0).mapM frameMap.typeOf
  let stack ← frame.stack.reverse.mapM frameMap.typeOf
  return ⟨dropTrailingTop locals, stack⟩

/-- The locals at method entry. -/
def initialLocals (frameMap : FrameMap) (thisClass : UInt16) (type : MethodType) :
    Flatten (List VerificationType) := do
  let params ← type.params.mapM fun param => frameMap.typeOf (.ofType param)
  return if frameMap.body.isStatic then params else .object thisClass :: params

/-- A frame of the table, carried over, with the position of its
instruction. -/
def carrySnapshot (frameMap : FrameMap) (malformed : FlattenError) (snapshot : Snapshot) :
    Flatten (Nat × Snapshot) := do
  let index ← Flatten.require malformed frameMap.relocation.addresses[snapshot.address]?
  let frame := frameMap.frame? index
  let locals ← frameMap.carryLocals frame snapshot.types.locals
  let stack ← frameMap.carryStack frame snapshot.types.stack
  let address ← Flatten.require malformed (frameMap.address? index)
  return (index, ⟨address, ⟨locals, stack⟩⟩)

/-- The frame of an instruction that became a jump target, if it can be
reached. -/
def newSnapshot? (frameMap : FrameMap) (malformed : FlattenError) (index : Nat) :
    Flatten (Option Snapshot) := do
  match frameMap.frame? index with
  | none => return none
  | some frame =>
      let types ← frameMap.typesOf frame
      let address ← Flatten.require malformed (frameMap.address? index)
      return some ⟨address, types⟩

/-- The table of the flattened body; there is none without frames. `targets`
are the instructions that need a frame because branches were widened. -/
def rebuild (frameMap : FrameMap) (malformed : FlattenError) (table : List StackMapFrame)
    (initial : List VerificationType) (targets : List Nat) :
    Flatten (Option (List StackMapFrame)) := do
  let carried ← (StackMapFrame.expand initial table).mapM (frameMap.carrySnapshot malformed)
  let covered := carried.map (·.1)
  let added ← (targets.filter (!covered.contains ·)).mapM (frameMap.newSnapshot? malformed)
  let snapshots := carried.map (·.2) ++ added.filterMap id
  return SnapshotSet.encode? initial (snapshots.foldl SnapshotSet.record {})

end FrameMap

end ValueForm
