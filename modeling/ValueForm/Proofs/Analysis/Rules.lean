import ValueForm.Proofs.Analysis.Evaluation

/-!
# What an instruction does

Most instructions take operands off the stack and put at most one value on it.
`Instruction.signature?` says for those which operands have to be references and
what is left; the other instructions move values in or out of local slots or
rearrange the stack.

`Instruction.Step` lists everything a transfer rule can do to a frame, with the
edits it asks for.
-/

namespace ValueForm

/-- Whether a class is value-capable according to answers. -/
def capability (answers : String → Except OracleError Bool) (className : String) : Bool :=
  match answers className with
  | .ok capable => capable
  | .error _ => false

theorem capability_of_ok {answers : String → Except OracleError Bool} {className : String}
    {capable : Bool} (answered : answers className = .ok capable) :
    capability answers className = capable := by
  simp [capability, answered]

/-- What an instruction leaves on the stack. -/
inductive Leaves where
  | nothing
  /-- A reference to something without value form. -/
  | reference
  /-- Something else without value form; a wide one counts as two words. -/
  | plain (wide : Bool)
  /-- An instance of a value-capable class, in a form. -/
  | capable (className : String) (form : LeftForm)
  deriving DecidableEq

/-- The operands an instruction takes, bottom first, each marked if it has to be
a reference, and what the instruction leaves. -/
structure Signature where
  operands : List Bool
  leaves : Leaves
  deriving DecidableEq

namespace Leaves

/-- A value without value form. -/
def ofValue (value : Value) : Leaves :=
  if value.isReference then .reference else .plain value.isWide

@[simp]
theorem ofValue_ne_nothing (value : Value) : ofValue value ≠ .nothing := by
  unfold ofValue
  split <;> exact Leaves.noConfusion

@[simp]
theorem ofValue_ne_capable (value : Value) (className : String) (form : LeftForm) :
    ofValue value ≠ .capable className form := by
  unfold ofValue
  split <;> exact Leaves.noConfusion

/-- What is left by reading or making something of a type: instances of
value-capable classes are left in the form given. -/
def ofType (capable : String → Bool) (form : LeftForm) (type : FieldType) : Leaves :=
  match type with
  | .object className => if capable className then .capable className form else .reference
  | type => ofValue (.ofType type)

/-- What a call leaves; calls give references. -/
def ofResult (capable : String → Bool) (type : FieldType) : Leaves :=
  if type = .void then .nothing else ofType capable .object type

theorem capable_of_ofType {capable : String → Bool} {form left : LeftForm} {type : FieldType}
    {className : String} (isCapable : ofType capable form type = .capable className left) :
    capable className = true ∧ left = form := by
  cases type with
  | object owner =>
      dsimp only [ofType] at isCapable
      split at isCapable
      · next answered =>
          cases isCapable
          exact ⟨answered, rfl⟩
      · cases isCapable
  | primitive | array => exact absurd isCapable (ofValue_ne_capable _ className left)

theorem capable_of_ofResult {capable : String → Bool} {type : FieldType} {className : String}
    {left : LeftForm} (isCapable : ofResult capable type = .capable className left) :
    capable className = true ∧ left = .object := by
  unfold ofResult at isCapable
  split at isCapable
  · cases isCapable
  · exact capable_of_ofType isCapable

/-- The values that stand for what is left, and the edits that go with them. A
reference that is left may be taken for something else, but nothing else for a
reference. -/
inductive Pushes (site : Site) : Leaves → List Value → List Edit → Prop
  | nothing : Pushes site .nothing [] []
  | reference {value : Value} (isPlain : value.isCapable = false) :
      Pushes site .reference [value] []
  | plain {wide : Bool} {value : Value} (isPlain : value.isReference = false) :
      Pushes site (.plain wide) [value] []
  | capable {className : String} {form : LeftForm} :
      Pushes site (.capable className form) [.capableAt className site]
        [.record { action := .keep, left := form, className }]

end Leaves

/-- The edits that make the marked operands references. -/
def Signature.forces (signature : Signature) (operands : List Value) : List Edit :=
  (signature.operands.zip operands).flatMap fun (isReference, value) =>
    if isReference then value.forces else []

namespace ConstantPool

/-- What loading a constant leaves. -/
def loaded? (pool : ConstantPool) (index : UInt16) : Option Leaves :=
  match pool.get? index with
  | some (.integer _) | some (.float _) => some (.plain false)
  | some (.long _) | some (.double _) => some (.plain true)
  | some (.string _) | some (.classRef _) | some (.methodType _) | some (.methodHandle ..) =>
      some .reference
  | some (.dynamic _ nameAndType) => do
      let (_, descriptor) ← pool.nameAndType? nameAndType
      let type ← FieldType.parse? descriptor
      return .ofValue (.ofType type)
  | _ => none

@[simp]
theorem loaded?_ne_capable (pool : ConstantPool) (index : UInt16) (className : String)
    (form : LeftForm) : pool.loaded? index ≠ some (.capable className form) := by
  unfold loaded?
  split <;> simp [Option.bind_eq_some_iff]

/-- The type of the field a reference names. -/
def fieldType? (pool : ConstantPool) (index : UInt16) : Option FieldType := do
  FieldType.parse? (← pool.member? index).descriptor

/-- The type of the method a reference names. -/
def methodType? (pool : ConstantPool) (index : UInt16) : Option MethodType := do
  MethodType.parse? (← pool.member? index).descriptor

/-- The type of the method a call site names. -/
def callSiteType? (pool : ConstantPool) (index : UInt16) : Option MethodType :=
  match pool.get? index with
  | some (.invokeDynamic _ nameAndType) => do
      let (_, descriptor) ← pool.nameAndType? nameAndType
      MethodType.parse? descriptor
  | _ => none

/-- The type a class constant names. -/
def namedType? (pool : ConstantPool) (index : UInt16) : Option FieldType := do
  FieldType.ofInternalName? (← pool.className? index)

end ConstantPool

/-- The operands of a test. -/
def BranchTest.operands : BranchTest → List Bool
  | .eq | .ne | .lt | .ge | .gt | .le => [false]
  | .intEq | .intNe | .intLt | .intGe | .intGt | .intLe => [false, false]
  | .refEq | .refNe => [true, true]
  | .null | .nonNull => [true]

/-- What loading an element of an array leaves. -/
def ArrayKind.leaves : ArrayKind → Leaves
  | .int | .byte | .char | .short | .float => .plain false
  | .long | .double => .plain true
  | .reference => .reference

@[simp]
theorem ArrayKind.leaves_ne_capable (kind : ArrayKind) (className : String) (form : LeftForm) :
    kind.leaves ≠ .capable className form := by
  cases kind <;> exact Leaves.noConfusion

/-- What a method hands back. -/
def ReturnKind.operands : ReturnKind → List Bool
  | .void => []
  | .reference => [true]
  | .int | .long | .float | .double => [false]

/-- A call of a method: the arguments, and the receiver below them, are passed
as references. -/
def MethodType.signature (capable : String → Bool) (hasReceiver : Bool) (type : MethodType) :
    Signature where
  operands := List.replicate
    (if hasReceiver then type.params.length + 1 else type.params.length) true
  leaves := .ofResult capable type.result

namespace Instruction

/-- The signature of an instruction that works on the stack alone. An array is
not asked to be a reference where it is indexed. -/
def signature? (pool : ConstantPool) (capable : String → Bool) : Instruction → Option Signature
  | .nop | .goto _ | .gotoWide _ | .ret _ => some ⟨[], .nothing⟩
  | .const value => some ⟨[], .ofValue value.value⟩
  | .bipush _ | .sipush _ | .jsr _ | .jsrWide _ => some ⟨[], .plain false⟩
  | .new _ => some ⟨[], .reference⟩
  | .ldc index => (pool.loaded? index.toUInt16).map (Signature.mk [])
  | .ldcWide index | .ldc2 index => (pool.loaded? index).map (Signature.mk [])
  | .arrayLoad kind => some ⟨[false, false], kind.leaves⟩
  | .arrayStore kind => some ⟨[false, false, kind = .reference], .nothing⟩
  | .binary _ kind => some ⟨[false, false], .ofValue kind.value⟩
  | .bitwise _ kind => some ⟨[false, false], .ofValue kind.value⟩
  | .negate kind => some ⟨[false], .ofValue kind.value⟩
  | .convert conversion => some ⟨[false], .ofValue conversion.value⟩
  | .compare _ => some ⟨[false, false], .plain false⟩
  | .branch test _ => some ⟨test.operands, .nothing⟩
  | .tableSwitch .. | .lookupSwitch .. => some ⟨[false], .nothing⟩
  | .leave kind => some ⟨kind.operands, .nothing⟩
  | .getStatic index =>
      (pool.fieldType? index).map fun type => ⟨[], .ofType capable .value type⟩
  | .getField index =>
      (pool.fieldType? index).map fun type => ⟨[true], .ofType capable .value type⟩
  | .putStatic _ | .athrow | .monitorEnter | .monitorExit => some ⟨[true], .nothing⟩
  | .putField _ => some ⟨[true, true], .nothing⟩
  | .invokeVirtual index | .invokeSpecial index | .invokeInterface index _ _ =>
      (pool.methodType? index).map (MethodType.signature capable true)
  | .invokeStatic index => (pool.methodType? index).map (MethodType.signature capable false)
  | .invokeDynamic index _ => (pool.callSiteType? index).map (MethodType.signature capable false)
  | .newArray _ | .newReferenceArray _ => some ⟨[false], .reference⟩
  | .arrayLength => some ⟨[false], .plain false⟩
  | .newMultiArray _ dimensions => some ⟨List.replicate dimensions.toNat false, .reference⟩
  | .checkCast index =>
      (pool.namedType? index).map fun type => ⟨[true], .ofType capable .object type⟩
  | .instanceOf _ => some ⟨[true], .plain false⟩
  | .load .. | .loadShort .. | .store .. | .storeShort .. | .stack _ | .increment ..
  | .incrementWide .. | .valueLoad _ | .valueStore _ | .valueArrayLoad | .valueArrayStore
  | .box _ | .unbox _ => none

/-- Instructions that work on the stack alone leave instances of value-capable
classes only, and in a form. -/
theorem capable_of_signature? {pool : ConstantPool} {capable : String → Bool}
    {instruction : Instruction} {signature : Signature} {className : String} {left : LeftForm}
    (known : instruction.signature? pool capable = some signature)
    (isCapable : signature.leaves = .capable className left) :
    capable className = true ∧ left ≠ .nothing := by
  cases instruction <;>
    simp only [signature?, Option.map_eq_some_iff, Option.some.injEq, reduceCtorEq] at known
  case getStatic | getField | checkCast =>
    rcases known with ⟨type, _, rfl⟩
    rcases Leaves.capable_of_ofType isCapable with ⟨answered, rfl⟩
    exact ⟨answered, LeftForm.noConfusion⟩
  case invokeVirtual | invokeSpecial | invokeInterface | invokeStatic | invokeDynamic =>
    rcases known with ⟨type, _, rfl⟩
    rcases Leaves.capable_of_ofResult isCapable with ⟨answered, rfl⟩
    exact ⟨answered, LeftForm.noConfusion⟩
  case ldc | ldcWide | ldc2 =>
    rcases known with ⟨_, isLoaded, rfl⟩
    cases isCapable
    exact absurd isLoaded (ConstantPool.loaded?_ne_capable pool _ className left)
  all_goals
    subst known
    simp at isCapable

/-- The slot an instruction increments. -/
def incremented? : Instruction → Option UInt16
  | .increment slot _ => some slot.toUInt16
  | .incrementWide slot _ => some slot
  | _ => none

/-- What a transfer rule can do to a frame, and the edits it asks for. -/
inductive Step (place : Place) (capable : String → Bool) : Instruction → Frame → Effect → Prop
  /-- Take operands off the stack and leave something on it. -/
  | consume {instruction : Instruction} {signature : Signature} {locals : Array Value}
      {operands rest pushed : List Value} {records : List Edit}
      (known : instruction.signature? place.pool capable = some signature)
      (count : operands.length = signature.operands.length)
      (pushes : signature.leaves.Pushes place.site pushed records) :
      Step place capable instruction ⟨locals, operands.reverse ++ rest⟩
        ⟨⟨locals, pushed ++ rest⟩, signature.forces operands ++ records⟩
  /-- Load something that is no instance of a value-capable class. -/
  | load {instruction : Instruction} {kind : LocalKind} {slot : UInt16} {before : Frame}
      {value : Value} (reads : instruction.localLoad? = some (kind, slot))
      (found : before.locals[slot.toNat]? = some value)
      (isPlain : kind = .reference → value.isCapable = false) :
      Step place capable instruction before
        ⟨before.push (if kind = .reference then value else kind.value), []⟩
  /-- Load an instance of a value-capable class. -/
  | loadValue {instruction : Instruction} {slot : UInt16} {before : Frame} {className : String}
      {contents : SiteSet} (reads : instruction.localLoad? = some (.reference, slot))
      (found : before.locals[slot.toNat]? = some (.capable className contents)) :
      Step place capable instruction before
        ⟨before.push (.capableAt className place.site),
          [.link contents,
            .record { action := .valueLoad slot contents, left := .value, className }]⟩
  /-- Store something that is no instance of a value-capable class. -/
  | store {instruction : Instruction} {kind : LocalKind} {slot : UInt16} {locals : Array Value}
      {value : Value} {rest : List Value} {after : Frame}
      (writes : instruction.localStore? = some (kind, slot))
      (isPlain : kind = .reference → value.isCapable = false)
      (done : (⟨locals, rest⟩ : Frame).setLocal slot
        (if kind = .reference then value else kind.value) = .ok after) :
      Step place capable instruction ⟨locals, value :: rest⟩ ⟨after, []⟩
  /-- Store an instance of a value-capable class. -/
  | storeValue {instruction : Instruction} {slot : UInt16} {locals : Array Value}
      {className : String} {operand : SiteSet} {rest : List Value} {after : Frame}
      (writes : instruction.localStore? = some (.reference, slot))
      (done : (⟨locals, rest⟩ : Frame).setLocal slot (.capableAt className place.site) =
        .ok after) :
      Step place capable instruction ⟨locals, .capable className operand :: rest⟩
        ⟨after, [.link operand,
          .record { action := .valueStore slot operand, left := .nothing, className }]⟩
  | increment {instruction : Instruction} {slot : UInt16} {before after : Frame}
      (increments : instruction.incremented? = some slot)
      (done : before.setLocal slot .int = .ok after) :
      Step place capable instruction before ⟨after, []⟩
  | shuffle {op : StackOp} {locals : Array Value} {stack stack' : List Value}
      (done : op.shuffle Value.isWide stack = some stack') :
      Step place capable (.stack op) ⟨locals, stack⟩ ⟨⟨locals, stack'⟩, []⟩
  /-- Load from an array of values. -/
  | loadElement {locals : Array Value} {position : Value} {className : String}
      {rest : List Value} (isFlat : place.flatArrays = true)
      (isCapable : capable className = true) :
      Step place capable (.arrayLoad .reference)
        ⟨locals, position :: .precise (.array (.object className)) :: rest⟩
        ⟨⟨locals, .capableAt className place.site :: rest⟩,
          [.record { action := .arrayLoad, left := .value, className }]⟩
  /-- Store an instance of the element class into an array of values. -/
  | storeElement {locals : Array Value} {position : Value} {className : String}
      {operand : SiteSet} {rest : List Value}
      (isFlat : place.flatArrays = true) (isCapable : capable className = true) :
      Step place capable (.arrayStore .reference)
        ⟨locals, .capable className operand :: position ::
          .precise (.array (.object className)) :: rest⟩
        ⟨⟨locals, rest⟩,
          [.link operand,
            .record { action := .arrayStore (some operand), left := .nothing, className }]⟩
  /-- Store something else into an array of values. -/
  | convertElement {locals : Array Value} {value position : Value} {className : String}
      {rest : List Value} (isFlat : place.flatArrays = true)
      (isCapable : capable className = true) :
      Step place capable (.arrayStore .reference)
        ⟨locals, value :: position :: .precise (.array (.object className)) :: rest⟩
        ⟨⟨locals, rest⟩,
          value.forces ++ [.record { action := .arrayStore none, left := .nothing, className }]⟩
  /-- Create an array of values. -/
  | createArray {index : UInt16} {locals : Array Value} {length : Value} {className : String}
      {rest : List Value} (isFlat : place.flatArrays = true)
      (isCapable : capable className = true)
      (named : place.pool.namedType? index = some (.object className)) :
      Step place capable (.newReferenceArray index) ⟨locals, length :: rest⟩
        ⟨⟨locals, .precise (.array (.object className)) :: rest⟩,
          [.record { action := .arrayNew className, left := .nothing, className }]⟩
  /-- Read an instance of a value-capable class from one. -/
  | readCapable {index : UInt16} {locals : Array Value} {owner className : String}
      {receiver : SiteSet} {rest : List Value}
      (typed : place.pool.fieldType? index = some (.object className))
      (isCapable : capable className = true) :
      Step place capable (.getField index) ⟨locals, .capable owner receiver :: rest⟩
        ⟨⟨locals, .capableAt className place.site :: rest⟩,
          [.link receiver,
            .record { action := .fieldRead receiver, left := .value, className }]⟩
  /-- Read something else from an instance of a value-capable class. -/
  | readPlain {index : UInt16} {locals : Array Value} {owner : String} {receiver : SiteSet}
      {field : MemberRef} {type : FieldType} {rest : List Value}
      (member : place.pool.member? index = some field)
      (typed : FieldType.parse? field.descriptor = some type)
      (isPlain : ∀ className, type = .object className → capable className = false) :
      Step place capable (.getField index) ⟨locals, .capable owner receiver :: rest⟩
        ⟨⟨locals, .ofType type :: rest⟩,
          [.link receiver,
            .record {
              action := .fieldRead receiver, left := .nothing, className := field.owner }]⟩
  /-- Call a constructor on an instance of a value-capable class. -/
  | construct {index : UInt16} {locals : Array Value} {className : String} {receiver : SiteSet}
      {arguments rest pushed : List Value} {records : List Edit} {method : MemberRef}
      {type : MethodType}
      (member : place.pool.member? index = some method) (isConstructor : method.name = "<init>")
      (typed : MethodType.parse? method.descriptor = some type)
      (count : arguments.length = type.params.length)
      (pushes : (Leaves.ofResult capable type.result).Pushes place.site pushed records) :
      Step place capable (.invokeSpecial index)
        ⟨locals, arguments.reverse ++ .capable className receiver :: rest⟩
        ⟨⟨((⟨locals, rest⟩ : Frame).addSite (.capable className receiver) place.site).locals,
            pushed ++
              ((⟨locals, rest⟩ : Frame).addSite (.capable className receiver) place.site).stack⟩,
          [.force receiver] ++ arguments.flatMap Value.forces ++
            [.record { action := .keep, left := .object, className }] ++ records⟩
  /-- Allocate an instance of a value-capable class. -/
  | allocate {index : UInt16} {before : Frame} {className : String}
      (named : place.pool.className? index = some className)
      (isCapable : capable className = true) :
      Step place capable (.new index) before
        ⟨before.push (.capableAt className place.site), []⟩

end Instruction

end ValueForm
