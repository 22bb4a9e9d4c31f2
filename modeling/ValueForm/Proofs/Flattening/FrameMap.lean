import ValueForm.Proofs.Flattening.Relocation
import ValueForm.Proofs.Flattening.Tables
import ValueForm.Proofs.StackMap.Snapshot

/-!
# Frames carried over

What becomes of the frames of a stack map table. A frame moves with its
instruction, an entry at a time: the address of an allocation follows the
allocation, an instance that now has the value form is an object of the value
class, one that has it only on some paths cannot be used any more, and
everything else stays. Instructions behind widened conditional branches get
frames from the analysis. The table of the flattened body unfolds to these
frames and no others.
-/

namespace ValueForm

open Flatten

namespace Registry

/-- One of the sites has a decision for the value form. -/
def SomeFree (registry : Registry) (sites : SiteSet) : Prop :=
  ∃ site ∈ sites, ∃ patch, registry.get? site = some patch ∧ patch.forced = false

/-- One of the sites has a decision that was forced to a reference. -/
def SomeForced (registry : Registry) (sites : SiteSet) : Prop :=
  ∃ site ∈ sites, ∃ patch, registry.get? site = some patch ∧ patch.forced = true

theorem any_isFree_eq_true_iff {registry : Registry} {sites : SiteSet} :
    sites.toList.any registry.isFree = true ↔ registry.SomeFree sites := by
  simp only [List.any_eq_true, isFree_eq_true_iff]
  rfl

theorem any_isForced_eq_true_iff {registry : Registry} {sites : SiteSet} :
    sites.toList.any registry.isForced = true ↔ registry.SomeForced sites := by
  simp only [List.any_eq_true, isForced_eq_true_iff]
  rfl

theorem any_isFree_eq_false_iff {registry : Registry} {sites : SiteSet} :
    sites.toList.any registry.isFree = false ↔ ¬ registry.SomeFree sites := by
  rw [← any_isFree_eq_true_iff, Bool.not_eq_true]

theorem any_isForced_eq_false_iff {registry : Registry} {sites : SiteSet} :
    sites.toList.any registry.isForced = false ↔ ¬ registry.SomeForced sites := by
  rw [← any_isForced_eq_true_iff, Bool.not_eq_true]

end Registry

namespace FrameMap

/-! ## What frames become -/

/-- The form of an instance follows from the decisions it depends on. -/
def HasForm (frameMap : FrameMap) (provenance : SiteSet) : InstanceForm → Prop
  | .value => frameMap.analysis.registry.SomeFree provenance ∧
      ¬ frameMap.analysis.registry.SomeForced provenance
  | .mixed => frameMap.analysis.registry.SomeFree provenance ∧
      frameMap.analysis.registry.SomeForced provenance
  | .reference => ¬ frameMap.analysis.registry.SomeFree provenance
  | .unconstructed index => ¬ frameMap.analysis.registry.SomeFree provenance ∧
      ¬ frameMap.analysis.registry.SomeForced provenance ∧
      provenance = .singleton (.instruction index) ∧ frameMap.allocates index = true

/-- What an entry of a frame becomes. `value` is what the analysis knows about
it. -/
inductive CarriesEntry (frameMap : FrameMap) (pool : ConstantPool) (value : Option Value) :
    VerificationType → VerificationType → Prop
  | allocated {old new : UInt16}
      (moves : frameMap.body.MovesTo frameMap.relocation.layout.bounds old.toNat new.toNat) :
      CarriesEntry frameMap pool value (.uninitialized old) (.uninitialized new)
  /-- No instruction is at the address. -/
  | astray {address : UInt16}
      (nowhere : ∀ located ∈ frameMap.body.instructions, located.address ≠ address.toNat) :
      CarriesEntry frameMap pool value (.uninitialized address) (.uninitialized address)
  | flat {className : String} {provenance : SiteSet} {old new : UInt16}
      (isCapable : value = some (.capable className provenance))
      (isFree : frameMap.analysis.registry.SomeFree provenance)
      (notForced : ¬ frameMap.analysis.registry.SomeForced provenance)
      (named : pool.NamesClass new (valueClassName className)) :
      CarriesEntry frameMap pool value (.object old) (.object new)
  | mixed {className : String} {provenance : SiteSet} {old : UInt16}
      (isCapable : value = some (.capable className provenance))
      (isFree : frameMap.analysis.registry.SomeFree provenance)
      (isForced : frameMap.analysis.registry.SomeForced provenance) :
      CarriesEntry frameMap pool value (.object old) .top
  | kept {type : VerificationType} (constructed : ∀ address, type ≠ .uninitialized address)
      (notFree : ∀ old className provenance, type = .object old →
        value = some (.capable className provenance) →
        ¬ frameMap.analysis.registry.SomeFree provenance) :
      CarriesEntry frameMap pool value type type

/-- What the analysis knows about a local of a frame. -/
def localAt (frame : Option Frame) (locals : List VerificationType) (position : Nat) :
    Option Value :=
  frame.bind fun frame =>
    frame.locals[((locals.take position).map VerificationType.slots).sum]?

/-- What the analysis knows about an entry of the stack of a frame, counted from
the bottom. -/
def entryAt (frame : Option Frame) (stack : List VerificationType) (position : Nat) :
    Option Value :=
  frame.bind fun frame =>
    if frame.stack.length = stack.length then frame.stack.reverse[position]? else none

/-- What the types of a frame become, entry by entry. -/
structure CarriesTypes (frameMap : FrameMap) (pool : ConstantPool) (frame : Option Frame)
    (old new : FrameTypes) : Prop where
  localCount : new.locals.length = old.locals.length
  locals : ∀ (position : Nat) (type : VerificationType), old.locals[position]? = some type →
    ∃ type', new.locals[position]? = some type' ∧
      frameMap.CarriesEntry pool (localAt frame old.locals position) type type'
  height : new.stack.length = old.stack.length
  stack : ∀ (position : Nat) (type : VerificationType), old.stack[position]? = some type →
    ∃ type', new.stack[position]? = some type' ∧
      frameMap.CarriesEntry pool (entryAt frame old.stack position) type type'

/-- The type of a value that the analysis found. -/
inductive Types (frameMap : FrameMap) (pool : ConstantPool) : Value → VerificationType → Prop
  | int : Types frameMap pool .int .integer
  | float : Types frameMap pool .float .float
  | long : Types frameMap pool .long .long
  | double : Types frameMap pool .double .double
  | null : Types frameMap pool .null .null
  | unset : Types frameMap pool .uninitialized .top
  | returnAddress : Types frameMap pool .returnAddress .top
  | reference {index : UInt16} (named : pool.NamesClass index "java/lang/Object") :
      Types frameMap pool .reference (.object index)
  | precise {type : FieldType} {name : String} {index : UInt16}
      (isName : type.internalName? = some name) (named : pool.NamesClass index name) :
      Types frameMap pool (.precise type) (.object index)
  | nameless {type : FieldType} (noName : type.internalName? = none) :
      Types frameMap pool (.precise type) .top
  | flat {className : String} {provenance : SiteSet} {index : UInt16}
      (hasForm : frameMap.HasForm provenance .value)
      (named : pool.NamesClass index (valueClassName className)) :
      Types frameMap pool (.capable className provenance) (.object index)
  | boxed {className : String} {provenance : SiteSet} {index : UInt16}
      (hasForm : frameMap.HasForm provenance .reference)
      (named : pool.NamesClass index className) :
      Types frameMap pool (.capable className provenance) (.object index)
  | mixed {className : String} {provenance : SiteSet}
      (hasForm : frameMap.HasForm provenance .mixed) :
      Types frameMap pool (.capable className provenance) .top
  /-- Addresses above 65535 are cut off. -/
  | unconstructed {className : String} {provenance : SiteSet} {index : Nat} {located : Located}
      {address : UInt16} (hasForm : frameMap.HasForm provenance (.unconstructed index))
      (atIndex : frameMap.body.instructions[index]? = some located)
      (moves : located.address ≤ 65535 →
        frameMap.body.MovesTo frameMap.relocation.layout.bounds located.address address.toNat) :
      Types frameMap pool (.capable className provenance) (.uninitialized address)

/-- The types of a frame that the analysis found. Unusable locals at the end are
left out. -/
structure TypesFrame (frameMap : FrameMap) (pool : ConstantPool) (frame : Frame)
    (types : FrameTypes) : Prop where
  locals : ∃ all, List.Forall₂ (frameMap.Types pool)
    (slotValues frame.locals frame.locals.size 0) all ∧ types.locals = dropTrailingTop all
  stack : List.Forall₂ (frameMap.Types pool) frame.stack.reverse types.stack

/-- The locals at method entry. -/
def TypesEntry (frameMap : FrameMap) (pool : ConstantPool) (thisClass : UInt16)
    (type : MethodType) (initial : List VerificationType) : Prop :=
  ∃ params, List.Forall₂ (fun param => frameMap.Types pool (.ofType param)) type.params params ∧
    initial = if frameMap.body.isStatic then params else .object thisClass :: params

/-- An instruction follows a conditional branch that has its long form now. -/
def FollowsWidened (frameMap : FrameMap) (index : Nat) : Prop :=
  ∃ previous address test offset, index = previous + 1 ∧
    frameMap.body.instructions[previous]? = some ⟨address, .branch test offset⟩ ∧
    frameMap.relocation.layout.widened[previous]? = some true

/-- The frame that an instruction has in the flattened body: the one it had, or
if it had none, one from the analysis behind a widened conditional branch. -/
inductive FrameAt (frameMap : FrameMap) (pool : ConstantPool) (old : List Snapshot)
    (index : Nat) (located : Located) : FrameTypes → Prop
  | carried {types types' : FrameTypes} (had : ⟨located.address, types⟩ ∈ old)
      (carries : frameMap.CarriesTypes pool (frameMap.frame? index) types types') :
      FrameAt frameMap pool old index located types'
  | derived {frame : Frame} {types : FrameTypes}
      (had : ∀ snapshot ∈ old, snapshot.address ≠ located.address)
      (follows : frameMap.FollowsWidened index) (reached : frameMap.frame? index = some frame)
      (typed : frameMap.TypesFrame pool frame types) :
      FrameAt frameMap pool old index located types

/-- The frames of the flattened body, in place of those before. -/
structure Rebuilds (frameMap : FrameMap) (pool : ConstantPool) (old new : List Snapshot) :
    Prop where
  sorted : new.Pairwise fun first second => first.address < second.address
  /-- A frame is at the start of the segment of an instruction. -/
  sound : ∀ snapshot ∈ new, ∃ index located, frameMap.body.instructions[index]? = some located ∧
    frameMap.relocation.layout.bounds[index]? = some snapshot.address ∧
    frameMap.FrameAt pool old index located snapshot.types
  /-- No frame was anywhere else. -/
  placed : ∀ snapshot ∈ old, ∃ (index : Nat) (located : Located),
    frameMap.body.instructions[index]? = some located ∧ located.address = snapshot.address
  /-- Every instruction that had a frame still has one, and so has every one that
  needs it now. -/
  complete : ∀ (index : Nat) (located : Located),
    frameMap.body.instructions[index]? = some located →
    (∃ snapshot ∈ old, snapshot.address = located.address) ∨
      frameMap.FollowsWidened index ∧ frameMap.frame? index ≠ none →
    ∃ snapshot ∈ new, frameMap.relocation.layout.bounds[index]? = some snapshot.address ∧
      frameMap.FrameAt pool old index located snapshot.types

/-! ## Entries -/

/-- Every instruction has its own address and its own place in the layout. -/
structure Placed (frameMap : FrameMap) : Prop where
  addresses : frameMap.relocation.addresses = frameMap.body.addresses
  distinct : ∀ {first second : Nat} {here there : Located},
    frameMap.body.instructions[first]? = some here →
    frameMap.body.instructions[second]? = some there → here.address = there.address →
    first = second
  size : frameMap.relocation.layout.starts.size = frameMap.body.instructions.size
  bounded : ∀ {index start : Nat}, frameMap.address? index = some start → start < 65535
  injective : ∀ {first second start : Nat}, frameMap.address? first = some start →
    frameMap.address? second = some start → first = second

namespace Placed

variable {frameMap : FrameMap} (placed : frameMap.Placed) {index : Nat}
include placed

theorem exists_located {start : Nat} (isStart : frameMap.address? index = some start) :
    ∃ located, frameMap.body.instructions[index]? = some located := by
  have inRange := (Array.getElem?_eq_some_iff.1 isStart).1
  exact ⟨_, Array.getElem?_eq_getElem (placed.size ▸ inRange)⟩

theorem exists_start {located : Located}
    (atIndex : frameMap.body.instructions[index]? = some located) :
    ∃ start, frameMap.address? index = some start := by
  have inRange := (Array.getElem?_eq_some_iff.1 atIndex).1
  exact ⟨_, Array.getElem?_eq_getElem (placed.size ▸ inRange)⟩

end Placed

variable {frameMap : FrameMap} {pool : ConstantPool}

theorem hasForm_form (frameMap : FrameMap) (provenance : SiteSet) :
    frameMap.HasForm provenance (frameMap.form provenance) := by
  unfold form
  dsimp only
  split
  · next isFree isForced =>
      exact ⟨Registry.any_isFree_eq_true_iff.1 isFree,
        Registry.any_isForced_eq_false_iff.1 isForced⟩
  · next isFree isForced =>
      exact ⟨Registry.any_isFree_eq_true_iff.1 isFree, Registry.any_isForced_eq_true_iff.1 isForced⟩
  · next isFree _ => exact Registry.any_isFree_eq_false_iff.1 isFree
  · next isFree isForced =>
      have notFree := Registry.any_isFree_eq_false_iff.1 isFree
      split
      · next index isOnly =>
          split
          · next allocates =>
              refine ⟨notFree, Registry.any_isForced_eq_false_iff.1 isForced, ?_, allocates⟩
              rcases provenance with ⟨sites, sorted⟩
              subst isOnly
              rfl
          · exact notFree
      · exact notFree

theorem object_spec {className : String} {bench last : Workbench} {type : VerificationType}
    (succeeded : object className bench = .ok type last) (grows : last.pool.Grows pool) :
    ∃ index, type = .object index ∧ pool.NamesClass index className := by
  rcases bind_eq_ok_iff.1 succeeded with ⟨index, between, interned, ended⟩
  rcases pure_eq_ok_iff.1 ended with ⟨rfl, rfl⟩
  exact ⟨index, rfl, namesClass_internClass interned grows⟩

/-- An allocation is where its instruction has moved to, if there is one. -/
theorem allocatedAt_cases (placed : frameMap.Placed) (old : UInt16) :
    (∃ new : UInt16, frameMap.allocatedAt old = .uninitialized new ∧
      frameMap.body.MovesTo frameMap.relocation.layout.bounds old.toNat new.toNat) ∨
    frameMap.allocatedAt old = .uninitialized old ∧
      ∀ located ∈ frameMap.body.instructions, located.address ≠ old.toNat := by
  unfold allocatedAt
  cases found : frameMap.relocation.address? old.toNat with
  | some address =>
      have moves := Relocation.movesTo_of_address? placed.addresses found
      rcases Option.bind_eq_some_iff.1 found with ⟨index, _, isStart⟩
      have isNew : (UInt16.ofNat address).toNat = address :=
        UInt16.toNat_ofNat_of_lt' (Nat.lt_succ_of_lt (placed.bounded isStart))
      exact .inl ⟨_, rfl, isNew.symm ▸ moves⟩
  | none =>
      refine .inr ⟨rfl, MethodBody.address_ne_of_getElem?_addresses ?_⟩
      -- The instruction at an address in the map has a place.
      rw [Relocation.address?, placed.addresses] at found
      cases known : frameMap.body.addresses[old.toNat]? with
      | none => rfl
      | some index =>
          rw [known] at found
          rcases MethodBody.getElem?_addresses known with ⟨located, atIndex, _⟩
          rcases placed.exists_start atIndex with ⟨start, isStart⟩
          cases isStart.symm.trans found

theorem carry_spec (placed : frameMap.Placed) {type new : VerificationType} {value : Option Value}
    {bench last : Workbench} (succeeded : frameMap.carry type value bench = .ok new last)
    (grows : last.pool.Grows pool) : frameMap.CarriesEntry pool value type new := by
  cases type with
  | uninitialized address =>
      rcases pure_eq_ok_iff.1 succeeded with ⟨rfl, _⟩
      rcases allocatedAt_cases placed address with ⟨new, isNew, moves⟩ | ⟨isOld, nowhere⟩
      · rw [isNew]
        exact .allocated moves
      · rw [isOld]
        exact .astray nowhere
  | object old =>
      have kept (notFree : ∀ className provenance, value = some (.capable className provenance) →
          ¬ frameMap.analysis.registry.SomeFree provenance) :
          frameMap.CarriesEntry pool value (.object old) (.object old) :=
        .kept (fun _ => VerificationType.noConfusion) fun _ className provenance _ =>
          notFree className provenance
      by_cases isCapable : ∃ className provenance, value = some (.capable className provenance)
      · rcases isCapable with ⟨className, provenance, rfl⟩
        have hasForm := frameMap.hasForm_form provenance
        rw [carry] at succeeded
        cases isForm : frameMap.form provenance with
        | value =>
            rw [isForm] at hasForm succeeded
            rcases object_spec succeeded grows with ⟨index, rfl, named⟩
            exact .flat rfl hasForm.1 hasForm.2 named
        | mixed =>
            rw [isForm] at hasForm succeeded
            rcases pure_eq_ok_iff.1 succeeded with ⟨rfl, _⟩
            exact .mixed rfl hasForm.1 hasForm.2
        | reference =>
            rw [isForm] at hasForm succeeded
            rcases pure_eq_ok_iff.1 succeeded with ⟨rfl, _⟩
            refine kept ?_
            rintro _ _ ⟨⟩
            exact hasForm
        | unconstructed index =>
            rw [isForm] at hasForm succeeded
            rcases pure_eq_ok_iff.1 succeeded with ⟨rfl, _⟩
            refine kept ?_
            rintro _ _ ⟨⟩
            exact hasForm.1
      · have other (className : String) (provenance : SiteSet) :
            value ≠ some (.capable className provenance) :=
          fun same => isCapable ⟨className, provenance, same⟩
        rw [carry] at succeeded
        · rcases pure_eq_ok_iff.1 succeeded with ⟨rfl, _⟩
          exact kept fun className provenance same => absurd same (other className provenance)
        · exact fun _ => VerificationType.noConfusion
        · exact fun _ className provenance _ => other className provenance
  | _ =>
      rcases pure_eq_ok_iff.1 succeeded with ⟨rfl, _⟩
      exact .kept (fun _ => VerificationType.noConfusion) fun _ _ _ => VerificationType.noConfusion

theorem typeOf_spec (placed : frameMap.Placed) {value : Value} {type : VerificationType}
    {bench last : Workbench} (succeeded : frameMap.typeOf value bench = .ok type last)
    (grows : last.pool.Grows pool) : frameMap.Types pool value type := by
  cases value with
  | reference =>
      rcases object_spec succeeded grows with ⟨index, rfl, named⟩
      exact .reference named
  | precise precise =>
      rw [typeOf] at succeeded
      cases isName : precise.internalName? with
      | some name =>
          rw [isName] at succeeded
          rcases object_spec succeeded grows with ⟨index, rfl, named⟩
          exact .precise isName named
      | none =>
          rw [isName] at succeeded
          rcases pure_eq_ok_iff.1 succeeded with ⟨rfl, _⟩
          exact .nameless isName
  | capable className provenance =>
      have hasForm := frameMap.hasForm_form provenance
      rw [typeOf] at succeeded
      cases isForm : frameMap.form provenance with
      | value =>
          rw [isForm] at hasForm succeeded
          rcases object_spec succeeded grows with ⟨index, rfl, named⟩
          exact .flat hasForm named
      | reference =>
          rw [isForm] at hasForm succeeded
          rcases object_spec succeeded grows with ⟨index, rfl, named⟩
          exact .boxed hasForm named
      | mixed =>
          rw [isForm] at hasForm succeeded
          rcases pure_eq_ok_iff.1 succeeded with ⟨rfl, _⟩
          exact .mixed hasForm
      | unconstructed index =>
          rw [isForm] at hasForm succeeded
          dsimp only at succeeded
          -- An allocation is an instruction of the body.
          have allocates := hasForm.2.2.2
          cases atIndex : frameMap.body.instructions[index]? with
          | none =>
              rw [FrameMap.allocates, atIndex] at allocates
              cases allocates
          | some located =>
              rw [atIndex] at succeeded
              rcases pure_eq_ok_iff.1 succeeded with ⟨rfl, _⟩
              have isAddress (few : located.address ≤ 65535) :
                  (UInt16.ofNat located.address).toNat = located.address :=
                UInt16.toNat_ofNat_of_lt' (Nat.lt_succ_of_le few)
              rcases allocatedAt_cases placed (UInt16.ofNat located.address) with
                ⟨new, isNew, moves⟩ | ⟨isOld, nowhere⟩
              · rw [isNew]
                exact .unconstructed hasForm atIndex fun few => isAddress few ▸ moves
              · rw [isOld]
                refine .unconstructed hasForm atIndex fun few => ?_
                exact absurd (isAddress few).symm (nowhere located (Array.mem_of_getElem? atIndex))
  | _ =>
      rcases pure_eq_ok_iff.1 succeeded with ⟨rfl, _⟩
      constructor

/-! ## Frames -/

theorem getElem?_withSlots (slot position : Nat) (types : List VerificationType) :
    (withSlots slot types)[position]? = types[position]?.map fun type =>
      (slot + ((types.take position).map VerificationType.slots).sum, type) := by
  induction types generalizing slot position with
  | nil => rfl
  | cons type rest ih =>
      cases position with
      | zero => rfl
      | succ position =>
          rw [withSlots, List.getElem?_cons_succ, ih, List.getElem?_cons_succ, List.take_succ_cons,
            List.map_cons, List.sum_cons, Nat.add_assoc]

@[simp]
theorem length_withSlots (slot : Nat) (types : List VerificationType) :
    (withSlots slot types).length = types.length := by
  induction types generalizing slot with
  | nil => rfl
  | cons type rest ih => exact congrArg Nat.succ (ih _)

theorem carryLocals_spec (placed : frameMap.Placed) {frame : Option Frame}
    {locals new : List VerificationType} {bench last : Workbench}
    (succeeded : frameMap.carryLocals frame locals bench = .ok new last)
    (grows : last.pool.Grows pool) :
    new.length = locals.length ∧
      ∀ (position : Nat) (type : VerificationType), locals[position]? = some type →
        ∃ type', new[position]? = some type' ∧
          frameMap.CarriesEntry pool (localAt frame locals position) type type' := by
  have each := mapM_spec (fun _ => frameMap.interning_carry _ _)
    (fun _ _ _ _ carried grows => carry_spec placed carried grows) succeeded grows
  refine ⟨each.length_eq.symm.trans (length_withSlots 0 locals), ?_⟩
  intro position type found
  have atSlot : (withSlots 0 locals)[position]? =
      some (((locals.take position).map VerificationType.slots).sum, type) := by
    rw [getElem?_withSlots, found, Option.map_some, Nat.zero_add]
  exact Outcome.getElem?_of_forall₂ each atSlot

/-- There is one value for every entry of the stack. -/
theorem exists_stackValues (frameMap : FrameMap) (frame : Option Frame)
    (stack : List VerificationType) :
    ∃ values : List (Option Value), frameMap.carryStack frame stack =
        ((stack.zip values).mapM fun (type, value) => frameMap.carry type value) ∧
      values.length = stack.length ∧
      ∀ position < stack.length, values[position]? = some (entryAt frame stack position) := by
  refine ⟨_, rfl, ?_⟩
  cases frame with
  | none => simp +contextual [entryAt]
  | some frame =>
      dsimp only [entryAt, Option.bind_some]
      split
      · next same =>
          rw [List.length_map, List.length_reverse]
          refine ⟨same, fun position inRange => ?_⟩
          rw [List.getElem?_map, List.getElem?_eq_getElem (by simpa [same] using inRange),
            Option.map_some]
      · simp +contextual

theorem carryStack_spec (placed : frameMap.Placed) {frame : Option Frame}
    {stack new : List VerificationType} {bench last : Workbench}
    (succeeded : frameMap.carryStack frame stack bench = .ok new last)
    (grows : last.pool.Grows pool) :
    new.length = stack.length ∧
      ∀ (position : Nat) (type : VerificationType), stack[position]? = some type →
        ∃ type', new[position]? = some type' ∧
          frameMap.CarriesEntry pool (entryAt frame stack position) type type' := by
  rcases frameMap.exists_stackValues frame stack with ⟨values, isTraversal, length, known⟩
  rw [isTraversal] at succeeded
  have each := mapM_spec (fun _ => frameMap.interning_carry _ _)
    (fun _ _ _ _ carried grows => carry_spec placed carried grows) succeeded grows
  refine ⟨?_, ?_⟩
  · rw [← each.length_eq, List.length_zip, length, Nat.min_self]
  · intro position type found
    have inRange := (List.getElem?_eq_some_iff.1 found).1
    have paired : (stack.zip values)[position]? = some (type, entryAt frame stack position) :=
      List.getElem?_zip_eq_some.2 ⟨found, known position inRange⟩
    exact Outcome.getElem?_of_forall₂ each paired

/-- A frame has moved with its instruction, the one at this position. -/
def CarriesSnapshot (frameMap : FrameMap) (pool : ConstantPool) (snapshot : Snapshot)
    (moved : Nat × Snapshot) : Prop :=
  ∃ located, frameMap.body.instructions[moved.1]? = some located ∧
    located.address = snapshot.address ∧ frameMap.address? moved.1 = some moved.2.address ∧
    frameMap.CarriesTypes pool (frameMap.frame? moved.1) snapshot.types moved.2.types

/-- An instruction got a frame from the analysis if it is reached. -/
def DerivesSnapshot (frameMap : FrameMap) (pool : ConstantPool) (index : Nat)
    (snapshot? : Option Snapshot) : Prop :=
  (frameMap.frame? index = none ∧ snapshot? = none) ∨
    ∃ frame snapshot, frameMap.frame? index = some frame ∧ snapshot? = some snapshot ∧
      frameMap.address? index = some snapshot.address ∧
      frameMap.TypesFrame pool frame snapshot.types

theorem carrySnapshot_spec (placed : frameMap.Placed) {malformed : FlattenError}
    {snapshot : Snapshot} {moved : Nat × Snapshot} {bench last : Workbench}
    (succeeded : frameMap.carrySnapshot malformed snapshot bench = .ok moved last)
    (grows : last.pool.Grows pool) : frameMap.CarriesSnapshot pool snapshot moved := by
  rcases bind_eq_ok_iff.1 succeeded with ⟨index, _, required, carrying⟩
  rcases require_eq_ok_iff.1 required with ⟨found, rfl⟩
  rcases bind_eq_ok_iff.1 carrying with ⟨locals, between, carriedLocals, carrying⟩
  rcases bind_eq_ok_iff.1 carrying with ⟨stack, after, carriedStack, placing⟩
  rcases bind_eq_ok_iff.1 placing with ⟨address, _, required, ended⟩
  rcases require_eq_ok_iff.1 required with ⟨isAddress, rfl⟩
  rcases pure_eq_ok_iff.1 ended with ⟨rfl, rfl⟩
  rw [placed.addresses] at found
  rcases MethodBody.getElem?_addresses found with ⟨located, atIndex, isOld⟩
  have later := (interning_mapM (fun _ => frameMap.interning_carry _ _) _ _ _ _ carriedStack).grows
  rcases carryLocals_spec placed carriedLocals (later.trans grows) with ⟨localCount, ofLocals⟩
  rcases carryStack_spec placed carriedStack grows with ⟨height, ofStack⟩
  exact ⟨located, atIndex, isOld, isAddress, localCount, ofLocals, height, ofStack⟩

theorem typesOf_spec (placed : frameMap.Placed) {frame : Frame} {types : FrameTypes}
    {bench last : Workbench} (succeeded : frameMap.typesOf frame bench = .ok types last)
    (grows : last.pool.Grows pool) : frameMap.TypesFrame pool frame types := by
  rcases bind_eq_ok_iff.1 succeeded with ⟨locals, between, typedLocals, typing⟩
  rcases bind_eq_ok_iff.1 typing with ⟨stack, after, typedStack, ended⟩
  rcases pure_eq_ok_iff.1 ended with ⟨rfl, rfl⟩
  have typed (value : Value) (bench : Workbench) (type : VerificationType) (last : Workbench)
      (succeeded : frameMap.typeOf value bench = .ok type last) (grows : last.pool.Grows pool) :=
    typeOf_spec placed succeeded grows
  have later := (interning_mapM frameMap.interning_typeOf _ _ _ _ typedStack).grows
  exact ⟨⟨locals, mapM_spec frameMap.interning_typeOf typed typedLocals (later.trans grows), rfl⟩,
    mapM_spec frameMap.interning_typeOf typed typedStack grows⟩

theorem initialLocals_spec (placed : frameMap.Placed) {thisClass : UInt16} {type : MethodType}
    {initial : List VerificationType} {bench last : Workbench}
    (succeeded : frameMap.initialLocals thisClass type bench = .ok initial last)
    (grows : last.pool.Grows pool) : frameMap.TypesEntry pool thisClass type initial := by
  rcases bind_eq_ok_iff.1 succeeded with ⟨params, between, typed, ended⟩
  rcases pure_eq_ok_iff.1 ended with ⟨rfl, rfl⟩
  exact ⟨params, mapM_spec (fun _ => frameMap.interning_typeOf _)
    (fun _ _ _ _ typed grows => typeOf_spec placed typed grows) typed grows, rfl⟩

theorem newSnapshot?_spec (placed : frameMap.Placed) {malformed : FlattenError} {index : Nat}
    {snapshot? : Option Snapshot} {bench last : Workbench}
    (succeeded : frameMap.newSnapshot? malformed index bench = .ok snapshot? last)
    (grows : last.pool.Grows pool) : frameMap.DerivesSnapshot pool index snapshot? := by
  unfold newSnapshot? at succeeded
  cases reached : frameMap.frame? index with
  | none =>
      rw [reached] at succeeded
      rcases pure_eq_ok_iff.1 succeeded with ⟨rfl, _⟩
      exact .inl ⟨reached, rfl⟩
  | some frame =>
      rw [reached] at succeeded
      rcases bind_eq_ok_iff.1 succeeded with ⟨types, between, typed, placing⟩
      rcases bind_eq_ok_iff.1 placing with ⟨address, _, required, ended⟩
      rcases require_eq_ok_iff.1 required with ⟨isAddress, rfl⟩
      rcases pure_eq_ok_iff.1 ended with ⟨rfl, rfl⟩
      exact .inr ⟨frame, _, reached, rfl, isAddress, typesOf_spec placed typed grows⟩

/-! ## Tables -/

/-- What is recorded for the new table: frames at segments, one for every
instruction that has one. -/
structure Records (frameMap : FrameMap) (pool : ConstantPool) (old records : List Snapshot) :
    Prop where
  sound : ∀ record ∈ records, ∃ index located,
    frameMap.body.instructions[index]? = some located ∧
    frameMap.address? index = some record.address ∧
    frameMap.FrameAt pool old index located record.types
  placed : ∀ snapshot ∈ old, ∃ (index : Nat) (located : Located),
    frameMap.body.instructions[index]? = some located ∧ located.address = snapshot.address
  complete : ∀ (index : Nat) (located : Located),
    frameMap.body.instructions[index]? = some located →
    (∃ snapshot ∈ old, snapshot.address = located.address) ∨
      frameMap.FollowsWidened index ∧ frameMap.frame? index ≠ none →
    ∃ record ∈ records, frameMap.address? index = some record.address

theorem records_of_carried (placed : frameMap.Placed) {old : List Snapshot}
    {carried : List (Nat × Snapshot)} {targets : List Nat} {added : List (Option Snapshot)}
    (isTarget : ∀ index, index ∈ targets ↔ frameMap.FollowsWidened index)
    (carries : List.Forall₂ (frameMap.CarriesSnapshot pool) old carried)
    (derives : List.Forall₂ (frameMap.DerivesSnapshot pool)
      (targets.filter (!(carried.map (·.1)).contains ·)) added) :
    frameMap.Records pool old (carried.map (·.2) ++ added.filterMap id) := by
  -- An instruction is covered exactly if a frame before was at its address.
  have covered {index : Nat} {located : Located}
      (atIndex : frameMap.body.instructions[index]? = some located) :
      index ∈ carried.map (·.1) ↔ ∃ snapshot ∈ old, snapshot.address = located.address := by
    constructor
    · intro found
      rcases List.mem_map.1 found with ⟨moved, isMoved, rfl⟩
      rcases Outcome.exists_of_mem_forall₂ carries isMoved with
        ⟨snapshot, isOld, located', atIndex', isAddress, _⟩
      cases atIndex.symm.trans atIndex'
      exact ⟨snapshot, isOld, isAddress.symm⟩
    · rintro ⟨snapshot, isOld, isAddress⟩
      rcases Outcome.exists_of_mem_forall₂ carries.flip isOld with
        ⟨moved, isMoved, located', atIndex', isAddress', _⟩
      have same := placed.distinct atIndex' atIndex (isAddress'.trans isAddress)
      exact List.mem_map.2 ⟨moved, isMoved, same⟩
  constructor
  · intro record isRecord
    rcases List.mem_append.1 isRecord with isCarried | isAdded
    · rcases List.mem_map.1 isCarried with ⟨moved, isMoved, rfl⟩
      rcases Outcome.exists_of_mem_forall₂ carries isMoved with
        ⟨snapshot, isOld, located, atIndex, isAddress, isStart, carriesTypes⟩
      exact ⟨moved.1, located, atIndex, isStart, .carried (isAddress ▸ isOld) carriesTypes⟩
    · rcases List.mem_filterMap.1 isAdded with ⟨snapshot?, isAdded, isRecord⟩
      rcases Outcome.exists_of_mem_forall₂ derives isAdded with
        ⟨index, isFiltered, ⟨_, rfl⟩ | ⟨frame, snapshot, reached, rfl, isStart, typed⟩⟩
      · cases isRecord
      · cases isRecord
        rcases List.mem_filter.1 isFiltered with ⟨inTargets, uncovered⟩
        rcases placed.exists_located isStart with ⟨located, atIndex⟩
        refine ⟨index, located, atIndex, isStart,
          .derived ?_ ((isTarget index).1 inTargets) reached typed⟩
        intro snapshot isOld isAddress
        have isCovered := (covered atIndex).2 ⟨snapshot, isOld, isAddress⟩
        rw [List.contains_iff_mem.2 isCovered] at uncovered
        cases uncovered
  · intro snapshot isOld
    rcases Outcome.exists_of_mem_forall₂ carries.flip isOld with
      ⟨moved, _, located, atIndex, isAddress, _⟩
    exact ⟨moved.1, located, atIndex, isAddress⟩
  · intro index located atIndex needed
    by_cases isCovered : index ∈ carried.map (·.1)
    · rcases List.mem_map.1 isCovered with ⟨moved, isMoved, rfl⟩
      rcases Outcome.exists_of_mem_forall₂ carries isMoved with ⟨_, _, _, _, _, isStart, _⟩
      exact ⟨moved.2, List.mem_append_left _ (List.mem_map_of_mem isMoved), isStart⟩
    · rcases needed with had | ⟨follows, reached⟩
      · exact absurd ((covered atIndex).2 had) isCovered
      · have isFiltered : index ∈ targets.filter (!(carried.map (·.1)).contains ·) := by
          rw [List.mem_filter, Bool.not_eq_true', ← Bool.not_eq_true, List.contains_iff_mem]
          exact ⟨(isTarget index).2 follows, isCovered⟩
        rcases Outcome.exists_of_mem_forall₂ derives.flip isFiltered with
          ⟨snapshot?, isAdded, ⟨unreached, _⟩ | ⟨_, snapshot, _, rfl, isStart, _⟩⟩
        · exact absurd unreached reached
        · exact ⟨snapshot, List.mem_append_right _ (List.mem_filterMap.2 ⟨_, isAdded, rfl⟩),
            isStart⟩

/-- A table has these frames. Without frames there is none, and one whose types
can be counted is read back. -/
def Tabulates (initial : List VerificationType) (frames : List Snapshot) :
    Option (List StackMapFrame) → Prop
  | none => frames = []
  | some table => frames ≠ [] ∧ StackMapFrame.expand initial table = frames ∧
      ((∀ snapshot ∈ frames,
          snapshot.types.locals.length ≤ 65535 ∧ snapshot.types.stack.length ≤ 65535) →
        StackMapFrame.readTable (StackMapFrame.tableBytes table) = .ok (table, []))

/-- The last record at each place makes up the new table. -/
theorem Records.rebuilds (placed : frameMap.Placed) {old records : List Snapshot}
    (isRecords : frameMap.Records pool old records) (initial : List VerificationType) :
    ∃ new, frameMap.Rebuilds pool old new ∧
      Tabulates initial new (SnapshotSet.encode? initial (.ofRecords records)) := by
  have bounded : ∀ record ∈ records, record.address < 65535 := by
    intro record isRecord
    rcases isRecords.sound record isRecord with ⟨_, _, _, isStart, _⟩
    exact placed.bounded isStart
  have rebuilds {new : List Snapshot}
      (sorted : new.Pairwise fun first second => first.address < second.address)
      (isNew : ∀ snapshot, snapshot ∈ new ↔ snapshot.IsLatest records) :
      frameMap.Rebuilds pool old new := by
    constructor
    · exact sorted
    · intro snapshot found
      rcases isRecords.sound snapshot ((isNew snapshot).1 found).mem with
        ⟨index, located, atIndex, isStart, frameAt⟩
      exact ⟨index, located, atIndex, Layout.getElem?_bounds isStart, frameAt⟩
    · exact isRecords.placed
    · intro index located atIndex needed
      rcases isRecords.complete index located atIndex needed with ⟨record, isRecord, isStart⟩
      rcases Snapshot.exists_isLatest isRecord with ⟨latest, isLatest, sameAddress⟩
      -- The record that stands is of the same instruction, for it is at the same place.
      rcases isRecords.sound latest isLatest.mem with
        ⟨index', located', atIndex', isStart', frameAt⟩
      rw [sameAddress] at isStart'
      cases placed.injective isStart isStart'
      cases atIndex.symm.trans atIndex'
      refine ⟨latest, (isNew latest).2 isLatest, ?_, frameAt⟩
      rw [sameAddress]
      exact Layout.getElem?_bounds isStart
  cases encoded : SnapshotSet.encode? initial (.ofRecords records) with
  | none =>
      cases SnapshotSet.encode?_ofRecords_eq_none_iff.1 encoded
      refine ⟨[], rebuilds .nil fun snapshot => ?_, rfl⟩
      exact iff_of_false List.not_mem_nil snapshot.not_isLatest_nil
  | some table =>
      have isNew := SnapshotSet.mem_expand_of_encode? encoded bounded
      refine ⟨_, rebuilds (StackMapFrame.pairwise_expand initial table) isNew, ?_, rfl, ?_⟩
      · intro isEmpty
        cases records with
        | nil => cases SnapshotSet.encode?_ofRecords_eq_none_iff.2 rfl ▸ encoded
        | cons record rest =>
            rcases Snapshot.exists_isLatest (List.mem_cons_self : record ∈ record :: rest) with
              ⟨latest, isLatest, _⟩
            exact List.not_mem_nil (isEmpty ▸ (isNew latest).2 isLatest)
      · intro few
        exact SnapshotSet.readTable_of_encode? encoded bounded fun record isLatest =>
          few record ((isNew record).2 isLatest)

/-- The table of a flattened body has the frames from before, carried over, and
those that widening made necessary. -/
theorem rebuild_spec (placed : frameMap.Placed) {malformed : FlattenError}
    {table : List StackMapFrame} {initial : List VerificationType} {targets : List Nat}
    (isTarget : ∀ index, index ∈ targets ↔ frameMap.FollowsWidened index)
    {rebuilt : Option (List StackMapFrame)} {bench last : Workbench}
    (succeeded : frameMap.rebuild malformed table initial targets bench = .ok rebuilt last)
    (grows : last.pool.Grows pool) :
    ∃ new, frameMap.Rebuilds pool (StackMapFrame.expand initial table) new ∧
      Tabulates initial new rebuilt := by
  rcases bind_eq_ok_iff.1 succeeded with ⟨carried, between, carrying, rest⟩
  rcases bind_eq_ok_iff.1 rest with ⟨added, after, adding, ended⟩
  rcases pure_eq_ok_iff.1 ended with ⟨rfl, rfl⟩
  have later := (interning_mapM (frameMap.interning_newSnapshot? malformed) _ _ _ _ adding).grows
  have carries := mapM_spec (frameMap.interning_carrySnapshot malformed)
    (fun _ _ _ _ carried grows => carrySnapshot_spec placed carried grows) carrying
    (later.trans grows)
  have derives := mapM_spec (frameMap.interning_newSnapshot? malformed)
    (fun _ _ _ _ derived grows => newSnapshot?_spec placed derived grows) adding grows
  exact (records_of_carried placed isTarget carries derives).rebuilds placed initial

end FrameMap

end ValueForm
