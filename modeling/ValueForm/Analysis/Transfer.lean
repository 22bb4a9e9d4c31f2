import ValueForm.ClassFile.Pool
import ValueForm.Inquiry
import ValueForm.Analysis.Error
import ValueForm.Analysis.Registry
import ValueForm.Analysis.Shuffle

/-!
# Transfer rules

What one instruction does to a frame, and which edits to the registry it asks
for. The rules never look at the registry: an instruction's edits depend on the
frame before it and on the answers about classes alone.

Wherever an instance of a value-capable class is used in a way that needs a
reference, its provenance is forced. Where it is used as a value, its provenance
is linked and the instruction records how it is to be done in value form.
-/

namespace ValueForm

/-- A change to the registry that an instruction asks for. -/
inductive Edit where
  /-- Set the patch of the instruction. -/
  | record (patch : Patch)
  /-- Force sites to yield references. -/
  | force (sites : SiteSet)
  /-- Note that sites reach the instruction together. -/
  | link (sites : SiteSet)
  deriving DecidableEq

namespace Registry

/-- Carry out an edit asked for at a site. -/
def edit (site : Site) (registry : Registry) : Edit → Registry
  | .record patch => registry.record site patch
  | .force sites => registry.force sites.toList
  | .link sites => registry.link sites

/-- Carry out the edits of one visit to a site. A visit that records nothing
retires the patch an earlier visit left. -/
def applyEdits (registry : Registry) (site : Site) (edits : List Edit) : Registry :=
  let edited := edits.foldl (edit site) registry
  let recorded := edits.any fun
    | .record _ => true
    | _ => false
  if recorded then edited else edited.retire site

end Registry

/-- Where a transfer rule is applied. -/
structure Place where
  pool : ConstantPool
  /-- Whether arrays of value-capable classes become arrays of values. -/
  flatArrays : Bool
  /-- The position of the instruction in the body. -/
  index : Nat
  address : Nat

/-- The site of the instruction. -/
def Place.site (place : Place) : Site :=
  .instruction place.index

/-- What a rule has done so far. -/
structure Effect where
  frame : Frame
  edits : List Edit

/-- A rule under way. -/
abbrev Transfer := StateT Effect (Inquiry AnalysisError)

namespace Transfer

variable {α : Type}

/-- Stop with an error. -/
def fail (error : AnalysisError) : Transfer α :=
  fun _ => Inquiry.fail error

/-- Go on with a value that must be there. -/
def require (error : AnalysisError) : Option α → Transfer α
  | some value => pure value
  | none => fail error

/-- Apply an operation to the frame. -/
def onFrame (place : Place) (operation : Frame → Except FrameError (α × Frame)) : Transfer α :=
  fun effect =>
    match operation effect.frame with
    | .ok (value, frame) => pure (value, { effect with frame })
    | .error error => Inquiry.fail (.frame place.address error)

/-- Take a value off the stack. -/
def pop (place : Place) : Transfer Value :=
  onFrame place Frame.pop

/-- Take values off the stack, given bottom first. -/
def popMany (place : Place) (count : Nat) : Transfer (List Value) :=
  onFrame place (Frame.popMany · count)

/-- Put a value on the stack. -/
def push (value : Value) : Transfer Unit :=
  modify fun effect => { effect with frame := effect.frame.push value }

/-- The value in a local slot. -/
def getLocal (place : Place) (slot : UInt16) : Transfer Value :=
  onFrame place fun frame => do return (← frame.getLocal slot, frame)

/-- Put a value into a local slot. -/
def setLocal (place : Place) (slot : UInt16) (value : Value) : Transfer Unit :=
  onFrame place fun frame => do return ((), ← frame.setLocal slot value)

/-- Rearrange the stack. -/
def shuffle (place : Place) (op : StackOp) : Transfer Unit :=
  onFrame place fun frame =>
    match op.shuffle Value.isWide frame.stack with
    | some stack => .ok ((), { frame with stack })
    | none => .error .underflow

/-- Take `count` values off the stack and put one on it. -/
def replace (place : Place) (count : Nat) (value : Value) : Transfer Unit := do
  discard (popMany place count)
  push value

/-- Ask for an edit. -/
def edit (change : Edit) : Transfer Unit :=
  modify fun effect => { effect with edits := effect.edits ++ [change] }

/-- Set the patch of the instruction. -/
def record (action : PatchAction) (left : LeftForm) (className : String) : Transfer Unit :=
  edit (.record { action, left, className })

/-- A value is needed as a reference. -/
def requireReference : Value → Transfer Unit
  | .capable _ provenance => edit (.force provenance)
  | _ => pure ()

/-- Whether a class is value-capable. -/
def isCapable (className : String) : Transfer Bool :=
  StateT.lift (Inquiry.capable .oracle className)

/-- The class a type is, if that class is value-capable. -/
def capableClass? : FieldType → Transfer (Option String)
  | .object className => do
      if ← isCapable className then return some className else return none
  | _ => return none

/-- Put an instance of a value-capable class, decided here, on the stack. -/
def pushCapable (place : Place) (className : String) : Transfer Unit :=
  push (.capableAt className place.site)

/-- The name of a class constant. -/
def classOperand (place : Place) (index : UInt16) : Transfer String :=
  require (.unresolved place.address index) (place.pool.className? index)

/-- What a member reference names. -/
def memberOperand (place : Place) (index : UInt16) : Transfer MemberRef :=
  require (.unresolved place.address index) (place.pool.member? index)

/-- The type a field descriptor denotes. -/
def fieldType (descriptor : String) : Transfer FieldType :=
  require (.invalidDescriptor descriptor) (FieldType.parse? descriptor)

/-- The type a class constant names. -/
def namedType (place : Place) (index : UInt16) : Transfer FieldType := do
  let name ← classOperand place index
  require (.invalidDescriptor name) (FieldType.ofInternalName? name)

end Transfer

/-- The value of a numeric kind. -/
def NumericKind.value : NumericKind → Value
  | .int => .int
  | .long => .long
  | .float => .float
  | .double => .double

/-- The value of an integral kind. -/
def IntegralKind.value : IntegralKind → Value
  | .int => .int
  | .long => .long

/-- The value of a storage kind that is not a reference. -/
def LocalKind.value : LocalKind → Value
  | .int => .int
  | .long => .long
  | .float => .float
  | .double => .double
  | .reference => .reference

/-- The value of an implied constant. -/
def ImpliedConstant.value : ImpliedConstant → Value
  | .null => .null
  | .intMinus1 | .int0 | .int1 | .int2 | .int3 | .int4 | .int5 => .int
  | .long0 | .long1 => .long
  | .float0 | .float1 | .float2 => .float
  | .double0 | .double1 => .double

/-- The value a conversion yields. -/
def NumericConversion.value : NumericConversion → Value
  | .l2i | .f2i | .d2i | .i2b | .i2c | .i2s => .int
  | .i2l | .f2l | .d2l => .long
  | .i2f | .l2f | .d2f => .float
  | .i2d | .l2d | .f2d => .double

/-- The element type of a primitive array, by its code. -/
def primitiveOfArrayCode (code : UInt8) : Primitive :=
  match code.toNat with
  | 4 => .boolean
  | 5 => .char
  | 6 => .float
  | 7 => .double
  | 8 => .byte
  | 9 => .short
  | 10 => .int
  | _ => .long

namespace Transfer

/-- The value a loadable constant denotes. -/
def constantValue (place : Place) (index : UInt16) : Transfer Value := do
  let unresolved := AnalysisError.unresolved place.address index
  let instanceOf (className : String) : Value := .precise (.object className)
  match ← require unresolved (place.pool.get? index) with
  | .integer _ => return .int
  | .float _ => return .float
  | .long _ => return .long
  | .double _ => return .double
  | .string _ => return instanceOf "java/lang/String"
  | .classRef _ => return instanceOf "java/lang/Class"
  | .methodType _ => return instanceOf "java/lang/invoke/MethodType"
  | .methodHandle .. => return instanceOf "java/lang/invoke/MethodHandle"
  | .dynamic _ nameAndType => do
      let (_, descriptor) ← require unresolved (place.pool.nameAndType? nameAndType)
      return .ofType (← fieldType descriptor)
  | _ => fail unresolved

/-- Load a local slot. A value-capable instance is loaded in value form. -/
def loadLocal (place : Place) (kind : LocalKind) (slot : UInt16) : Transfer Unit := do
  let value ← getLocal place slot
  match kind, value with
  | .reference, .capable className provenance => do
      edit (.link provenance)
      record (.valueLoad slot provenance) .value className
      pushCapable place className
  | .reference, value => push value
  | kind, _ => push kind.value

/-- Store into a local slot. A value-capable instance is stored in value
form. -/
def storeLocal (place : Place) (kind : LocalKind) (slot : UInt16) : Transfer Unit := do
  let value ← pop place
  match kind, value with
  | .reference, .capable className provenance => do
      edit (.link provenance)
      record (.valueStore slot provenance) .nothing className
      setLocal place slot (.capableAt className place.site)
  | .reference, value => setLocal place slot value
  | kind, _ => setLocal place slot kind.value

/-- Load a reference from an array. -/
def loadElement (place : Place) : Transfer Unit := do
  discard (pop place)
  match ← pop place with
  | .precise (.array element) => do
      match ← capableClass? element with
      | some className =>
          if place.flatArrays then do
            record .arrayLoad .value className
            pushCapable place className
          else
            push (.precise (.object className))
      | none => push (.ofType element)
  | _ => push .reference

/-- The value-capable class of the elements of an array, if the array is one of
values. -/
def valueElement? (place : Place) : Value → Transfer (Option String)
  | .precise (.array element) =>
      if place.flatArrays then capableClass? element else return none
  | _ => return none

/-- Store a reference into an array. -/
def storeElement (place : Place) : Transfer Unit := do
  let value ← pop place
  discard (pop place)
  let array ← pop place
  match ← valueElement? place array, value with
  | some element, .capable className provenance =>
      if className = element then do
        edit (.link provenance)
        record (.arrayStore (some provenance)) .nothing element
      else do
        edit (.force provenance)
        record (.arrayStore none) .nothing element
  | some element, _ => record (.arrayStore none) .nothing element
  | none, value => requireReference value

/-- Read a static field. -/
def readStatic (place : Place) (index : UInt16) : Transfer Unit := do
  let field ← memberOperand place index
  let type ← fieldType field.descriptor
  match ← capableClass? type with
  | some className => do
      record .keep .value className
      pushCapable place className
  | none => push (.ofType type)

/-- Read a field of an object. A value-capable receiver is read through its
value class. -/
def readField (place : Place) (index : UInt16) : Transfer Unit := do
  let field ← memberOperand place index
  let receiver ← pop place
  let type ← fieldType field.descriptor
  match receiver, ← capableClass? type with
  | .capable _ provenance, some className => do
      edit (.link provenance)
      record (.fieldRead provenance) .value className
      pushCapable place className
  | .capable _ provenance, none => do
      edit (.link provenance)
      record (.fieldRead provenance) .nothing field.owner
      push (.ofType type)
  | _, some className => do
      record .keep .value className
      pushCapable place className
  | _, none => push (.ofType type)

/-- The constructor call on a value-capable receiver: every copy of the
receiver now depends on the call too. -/
def construct (place : Place) : Value → Transfer Unit
  | .capable className provenance => do
      record .keep .object className
      modify fun effect =>
        { effect with frame := effect.frame.addSite (.capable className provenance) place.site }
  | _ => pure ()

/-- Push the result of a call. -/
def pushResult (place : Place) (type : FieldType) : Transfer Unit := do
  if type = .void then pure ()
  else
    match ← capableClass? type with
    | some className => do
        record .keep .object className
        pushCapable place className
    | none => push (.ofType type)

/-- Call a method of a given descriptor. Calls always take references. -/
def invoke (place : Place) (descriptor : String) (hasReceiver isConstructor : Bool) :
    Transfer Unit := do
  let type ← require (.invalidDescriptor descriptor) (MethodType.parse? descriptor)
  let arguments ← popMany place type.params.length
  if hasReceiver then do
    let receiver ← pop place
    requireReference receiver
    arguments.forM requireReference
    if isConstructor then construct place receiver
  else
    arguments.forM requireReference
  pushResult place type.result

/-- Call the method a reference names. -/
def invokeMember (place : Place) (index : UInt16) (hasReceiver isSpecial : Bool) :
    Transfer Unit := do
  let method ← memberOperand place index
  invoke place method.descriptor hasReceiver (isSpecial && method.name == "<init>")

/-- Call through a call site constant. -/
def invokeCallSite (place : Place) (index : UInt16) : Transfer Unit := do
  let callSite :=
    match place.pool.get? index with
    | some (.invokeDynamic _ nameAndType) => place.pool.nameAndType? nameAndType
    | _ => none
  let (_, descriptor) ← require (.unresolved place.address index) callSite
  invoke place descriptor false false

/-- Allocate an object. A fresh instance of a value-capable class is tagged
with the allocation, so that the constructor call finds every copy of it; the
allocation itself takes no decision. -/
def allocate (place : Place) (index : UInt16) : Transfer Unit := do
  let className ← classOperand place index
  if ← isCapable className then pushCapable place className
  else push (.precise (.object className))

/-- Create an array of references. -/
def createArray (place : Place) (index : UInt16) : Transfer Unit := do
  discard (pop place)
  let element ← namedType place index
  if place.flatArrays then
    match ← capableClass? element with
    | some className => record (.arrayNew className) .nothing className
    | none => pure ()
  push (.precise (.array element))

/-- Cast a reference. -/
def cast (place : Place) (index : UInt16) : Transfer Unit := do
  requireReference (← pop place)
  let type ← namedType place index
  match ← capableClass? type with
  | some className => do
      record .keep .object className
      pushCapable place className
  | none => push (.precise type)

/-- Enter or leave a monitor, which a value does not have. -/
def useMonitor (place : Place) : Transfer Unit := do
  if (← pop place).isCapable then fail (.monitorOnValue place.address)

/-- Take the operands of a conditional branch. -/
def test (place : Place) : BranchTest → Transfer Unit
  | .eq | .ne | .lt | .ge | .gt | .le => discard (pop place)
  | .intEq | .intNe | .intLt | .intGe | .intGt | .intLe => discard (popMany place 2)
  | .refEq | .refNe => do (← popMany place 2).forM requireReference
  | .null | .nonNull => do requireReference (← pop place)

/-- Take the result of a method off the stack. -/
def giveBack (place : Place) : ReturnKind → Transfer Unit
  | .void => pure ()
  | .reference => do requireReference (← pop place)
  | .int | .long | .float | .double => discard (pop place)

end Transfer

namespace Instruction

open Transfer

/-- The rule of an instruction. -/
def rule (place : Place) : Instruction → Transfer Unit
  | .nop | .goto _ | .gotoWide _ | .ret _ => pure ()
  | .const value => push value.value
  | .bipush _ | .sipush _ => push .int
  | .ldc index => do push (← constantValue place index.toUInt16)
  | .ldcWide index | .ldc2 index => do push (← constantValue place index)
  | .load kind slot => loadLocal place kind slot.slot
  | .loadShort kind slot => loadLocal place kind (UInt16.ofNat slot.val)
  | .store kind slot => storeLocal place kind slot.slot
  | .storeShort kind slot => storeLocal place kind (UInt16.ofNat slot.val)
  | .arrayLoad kind =>
      match kind with
      | .int | .byte | .char | .short => replace place 2 .int
      | .long => replace place 2 .long
      | .float => replace place 2 .float
      | .double => replace place 2 .double
      | .reference => loadElement place
  | .arrayStore kind =>
      match kind with
      | .reference => storeElement place
      | _ => discard (popMany place 3)
  | .stack op => shuffle place op
  | .binary _ kind => replace place 2 kind.value
  | .negate kind => replace place 1 kind.value
  | .bitwise _ kind => replace place 2 kind.value
  | .increment slot _ => setLocal place slot.toUInt16 .int
  | .incrementWide slot _ => setLocal place slot .int
  | .convert conversion => replace place 1 conversion.value
  | .compare _ => replace place 2 .int
  | .branch condition _ => test place condition
  | .jsr _ | .jsrWide _ => push .returnAddress
  | .tableSwitch .. | .lookupSwitch .. => discard (pop place)
  | .leave kind => giveBack place kind
  | .getStatic index => readStatic place index
  | .putStatic _ => do requireReference (← pop place)
  | .getField index => readField place index
  | .putField _ => do (← popMany place 2).forM requireReference
  | .invokeVirtual index => invokeMember place index true false
  | .invokeSpecial index => invokeMember place index true true
  | .invokeStatic index => invokeMember place index false false
  | .invokeInterface index _ _ => invokeMember place index true false
  | .invokeDynamic index _ => invokeCallSite place index
  | .new index => allocate place index
  | .newArray code =>
      replace place 1 (.precise (.array (.primitive (primitiveOfArrayCode code))))
  | .newReferenceArray index => createArray place index
  | .newMultiArray index dimensions => do
      discard (popMany place dimensions.toNat)
      push (.precise (← namedType place index))
  | .arrayLength => replace place 1 .int
  | .athrow => do requireReference (← pop place)
  | .checkCast index => cast place index
  | .instanceOf _ => do
      requireReference (← pop place)
      push .int
  | .monitorEnter | .monitorExit => useMonitor place
  | .valueLoad _ | .valueStore _ | .valueArrayLoad | .valueArrayStore | .box _ | .unbox _ =>
      fail (.valueForm place.address)

/-- The frame after an instruction and the edits it asks for. -/
def transfer (place : Place) (instruction : Instruction) (before : Frame) :
    Inquiry AnalysisError Effect := do
  let (_, effect) ← (instruction.rule place).run ⟨before, []⟩
  return effect

end Instruction

end ValueForm
